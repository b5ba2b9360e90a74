import DeviceSheet.Disk.Edit
import DeviceSheet.Proofs.NewDirectories
import DeviceSheet.Proofs.WritingJobs

/-!
# What a registration does to the files

A registration looks for the fragment first and makes the directory of the fragments after that.
What is made may change where the path of the fragment leads, so a fragment that was not found may
be there when it is written.  Such a file is *uncovered*.

* All other files have their bytes, and the source has them with more behind
  (`Layout.register_keeps_files`).  A file is uncovered only if the directory of the fragments was
  missing and its path has double dots.
* The fragment is written before the source.  If the source cannot be written, the fragment stays,
  and the device cannot be registered again.  A registration that fails for another reason leaves
  directories at most (`Layout.register_failure_leaves`).
-/

namespace DeviceSheet

variable {d d' : Disk}

namespace Layout

variable {l : Layout} {name width height : Text}

/-! ## Uncovered files -/

/-- The fragment of the device is not found at first.  When the directory of the fragments has been
made, its path leads to the place. -/
structure Uncovers (l : Layout) (d : Disk) (name : Text) (q : Place) : Prop where
  valid : isDeviceName name = true
  before : d.contains (fragmentPath l.deviceDir name) = false
  after : ∃ d', d.makeDirs l.deviceDir = (.ok (), d') ∧
    d'.place? (fragmentPath l.deviceDir name) = some q

/-- Nothing is uncovered in a directory that was there. -/
theorem Uncovers.hasDir {q : Place} (h : l.Uncovers d name q) : d.hasDir l.deviceDir = false := by
  cases hdir : d.hasDir l.deviceDir with
  | false => rfl
  | true =>
    obtain ⟨d', hmade, hplace⟩ := h.after
    cases (Disk.makeDirs_of_hasDir hdir).symm.trans hmade
    simpa [Disk.contains, hplace] using h.before

/-- On a tree nothing is uncovered without double dots. -/
theorem Uncovers.up_mem {q : Place} (h : l.Uncovers d name q) (htree : d.IsTree) :
    .up ∈ l.deviceDir.steps := by
  obtain ⟨d', hmade, hplace⟩ := h.after
  refine Decidable.byContradiction fun hup => ?_
  have hfree := not_contains_of_makeDirs htree hup h.valid h.before hmade
  simp [Disk.contains, hplace] at hfree

/-- The fragment is written to one place, which was free or is uncovered. -/
theorem exists_place_of_write {d₁ d₂ : Disk} (hname : isDeviceName name = true)
    (hfree : d.contains (fragmentPath l.deviceDir name) = false)
    (hmade : d.makeDirs l.deviceDir = (.ok (), d₁))
    (hwrite : d₁.write (fragmentPath l.deviceDir name) (fragmentStub name).encode = .ok d₂) :
    ∃ q, d₂.Holds (fragmentPath l.deviceDir name) q (fragmentStub name) ∧ d.Keeps d₂ [q] ∧
      (d.get? q = none ∨ l.Uncovers d name q) := by
  have hkeeps := Disk.keeps_makeDirs hmade
  obtain ⟨q, bytes, hne, hfile, rfl, hlocate⟩ := Disk.update_eq_ok hwrite
  refine ⟨q, hlocate, hkeeps.trans (.insert hne _), ?_⟩
  rcases hfile with ⟨hnone, -⟩ | ⟨hplace, -⟩
  · left
    cases hget : d.get? q with
    | none => rfl
    | some entry => cases hnone.symm.trans (hkeeps.extends.get? hget)
  · exact .inr ⟨hname, hfree, d₁, hmade, hplace⟩

/-! ## Files that are kept -/

/-- A file that is not uncovered has the bytes it had, and the source may have more. -/
theorem Registers.get?_of_file {result : Except Failure Registration} {q : Place} {bytes : Bytes}
    (h : l.Registers name width height d result d') (hget : d.get? q = some (.file bytes))
    (hcovered : ¬ l.Uncovers d name q) :
    d'.get? q = some (.file bytes) ∨
      d'.place? l.source = some q ∧ ∃ more, d'.get? q = some (.file (bytes ++ more)) := by
  -- the fragment goes to another place
  have hother : ∀ {d₂ q'}, d.Keeps d₂ [q'] → (d.get? q' = none ∨ l.Uncovers d name q') →
      d₂.get? q = some (.file bytes) := by
    intro d₂ q' hkeeps hq'
    refine hkeeps.get?_of_some (fun hmem => ?_) hget
    obtain rfl := List.mem_singleton.1 hmem
    rcases hq' with hnone | huncovers
    · cases hnone.symm.trans hget
    · exact hcovered huncovers
  cases h with
  | invalid | taken => exact .inl hget
  | noDirectory _ _ hmade | noFragment _ _ hmade _ =>
    exact .inl ((Disk.keeps_makeDirs hmade).extends.get? hget)
  | noLine hcall hfree hmade hwrite hputs =>
    obtain ⟨hname, -⟩ := DeviceCall.checked_eq_ok_iff.1 hcall
    obtain ⟨q', -, hkeeps, hq'⟩ := exists_place_of_write hname hfree hmade hwrite
    exact .inl (hputs.of_error.2.extends.get? (hother hkeeps hq'))
  | done hcall hfree hmade hwrite hputs =>
    obtain ⟨hname, -⟩ := DeviceCall.checked_eq_ok_iff.1 hcall
    obtain ⟨q', -, hkeeps, hq'⟩ := exists_place_of_write hname hfree hmade hwrite
    obtain ⟨d₃, hkeeps', happend⟩ := hputs.of_ok
    rcases Disk.get?_of_append happend (hkeeps'.extends.get? (hother hkeeps hq')) with
      hsame | ⟨hplace, hmore⟩
    · exact .inl hsame
    · exact .inr ⟨hplace, _, hmore⟩

/-- Whether a device is registered or not, every file has the bytes it had, and the source has them
with more behind, unless the file is uncovered.  This takes a missing directory for the fragments,
and on a tree also double dots in its path. -/
theorem register_keeps_files (l : Layout) (name width height : Text) (d : Disk) :
    let o := (l.register name width height).run d
    (∀ q bytes, d.get? q = some (.file bytes) → ¬ l.Uncovers d name q →
      o.disk.get? q = some (.file bytes) ∨
        o.disk.place? l.source = some q ∧ ∃ more, o.disk.get? q = some (.file (bytes ++ more))) ∧
    ∀ q, l.Uncovers d name q →
      d.hasDir l.deviceDir = false ∧ (d.IsTree → .up ∈ l.deviceDir.steps) := by
  intro o
  refine ⟨fun q bytes hget hcovered => ?_, fun q huncovers => ⟨huncovers.hasDir, huncovers.up_mem⟩⟩
  exact (registers ⟨rfl, rfl⟩).get?_of_file hget hcovered

/-- The directory of the fragments is new, and the source is a link. -/
theorem register_keeps_files_link :
    let l : Layout := ⟨⟨"s".toList⟩, ⟨"a/b".toList⟩, ⟨[]⟩, ⟨[]⟩, 4⟩
    let d : Disk := ⟨[
      ([['s']], .link ⟨"m".toList⟩),
      ([['m']], .file (Text.encode "x".toList)),
      ([['n']], .file (Text.encode "y".toList))], []⟩
    let o := (l.register "tv".toList "1".toList "2".toList).run d
    d.IsTree ∧ o.value.toOption.isSome = true ∧
      o.disk.get? [['n']] = some (.file (Text.encode "y".toList)) ∧
      ∃ more, o.disk.get? [['m']] = some (.file (Text.encode "x".toList ++ more)) := by
  intro l d o
  have htree : d.IsTree := .of_entries (by decide +kernel) (by decide +kernel)
  obtain ⟨hfiles, huncovers⟩ := register_keeps_files l "tv".toList "1".toList "2".toList d
  have hcovered : ∀ q, ¬ l.Uncovers d "tv".toList q := by
    intro q huncovered
    exact absurd ((huncovers q huncovered).2 htree) (by decide +kernel)
  refine ⟨htree, by decide +kernel, ?_, ?_⟩
  · rcases hfiles [['n']] _ rfl (hcovered _) with hsame | ⟨hplace, -⟩
    · exact hsame
    · exact absurd hplace (by decide +kernel)
  · rcases hfiles [['m']] _ rfl (hcovered _) with hsame | ⟨-, hmore⟩
    · exact ⟨[], by rw [List.append_nil]; exact hsame⟩
    · exact hmore

/-- A fragment is overwritten that could not be found, since the first directory on its path was
missing. -/
theorem register_overwrites_uncovered :
    let l : Layout :=
      ⟨⟨"dmcss/index.dmcss".toList⟩, ⟨"new/../dmcss/devices".toList⟩, ⟨[]⟩, ⟨[]⟩, 64⟩
    let fragment : Place := ["dmcss".toList, "devices".toList, "ipad.dmcss".toList]
    let d : Disk := ⟨[
      (["dmcss".toList], .dir),
      (["dmcss".toList, "devices".toList], .dir),
      (fragment, .file (Text.encode "custom \x7b\x7d".toList)),
      (["dmcss".toList, "index.dmcss".toList], .file (Text.encode "body \x7b\x7d".toList))], []⟩
    let o := (l.register "ipad".toList "768".toList "1024".toList).run d
    d.IsTree ∧ o.value.toOption.isSome = true ∧ o.disk.place? l.source ≠ some fragment ∧
      d.get? fragment = some (.file (Text.encode "custom \x7b\x7d".toList)) ∧
      o.disk.get? fragment = some (.file (fragmentStub "ipad".toList).encode) := by
  intro l fragment d o
  exact ⟨.of_entries (by decide +kernel) (by decide +kernel), by decide +kernel, by decide +kernel,
    by decide +kernel, by decide +kernel⟩

/-! ## What a failed registration leaves -/

/-- A device with a fragment is not registered. -/
theorem Registers.of_contains {call : DeviceCall} {result : Except Failure Registration}
    (h : l.Registers name width height d result d')
    (hcall : DeviceCall.checked name width height = .ok call)
    (hcontains : d.contains (fragmentPath l.deviceDir name) = true) :
    result = .error (.fragmentExists (fragmentPath l.deviceDir name)) ∧ d' = d := by
  cases h with
  | invalid hfailure => cases hcall.symm.trans hfailure
  | taken => exact ⟨rfl, rfl⟩
  | noDirectory _ hfree | noFragment _ hfree | noLine _ hfree | done _ hfree =>
    cases hcontains.symm.trans hfree

/-- A registration that fails leaves directories, or it fails on the source and leaves the
fragment. -/
theorem Registers.of_error {failure : Failure}
    (h : l.Registers name width height d (.error failure) d') :
    d.Keeps d' [] ∨
      failure.OnWriting l.source ∧
      (∃ q, d'.Holds (fragmentPath l.deviceDir name) q (fragmentStub name) ∧ d.Keeps d' [q] ∧
        (d.get? q = none ∨ l.Uncovers d name q)) ∧
      ∃ call, DeviceCall.checked name width height = .ok call := by
  cases h with
  | invalid | taken => exact .inl (.refl d)
  | noDirectory _ _ hmade | noFragment _ _ hmade _ => exact .inl (Disk.keeps_makeDirs hmade)
  | noLine hcall hfree hmade hwrite hputs =>
    obtain ⟨hname, -⟩ := DeviceCall.checked_eq_ok_iff.1 hcall
    obtain ⟨q, hholds, hkeeps, hq⟩ := exists_place_of_write hname hfree hmade hwrite
    obtain ⟨hfailure, hkeeps'⟩ := hputs.of_error
    exact .inr ⟨hfailure, ⟨q, hholds.extend hkeeps'.extends, hkeeps.trans hkeeps', hq⟩, _, hcall⟩

/-- A registration that fails leaves directories at most, unless it fails on writing to the source.
Then it leaves its fragment too, and the device cannot be registered as long as the fragment is
there. -/
theorem register_failure_leaves (l : Layout) (name width height : Text) (d : Disk)
    (failure : Failure) (h : ((l.register name width height).run d).value = .error failure) :
    let left := ((l.register name width height).run d).disk
    let fragment := fragmentPath l.deviceDir name
    d.Keeps left [] ∨
      failure.OnWriting l.source ∧
      (∃ q, left.Holds fragment q (fragmentStub name) ∧ d.Keeps left [q] ∧
        (d.get? q = none ∨ l.Uncovers d name q)) ∧
      ∀ d', d'.contains fragment = true →
        (l.register name width height).Looks d' (.error (.fragmentExists fragment)) := by
  intro left fragment
  rcases (registers ⟨h, rfl⟩).of_error with hkeeps | ⟨hfailure, hfragment, call, hcall⟩
  · exact .inl hkeeps
  · refine .inr ⟨hfailure, hfragment, fun d' hcontains => ?_⟩
    exact (registers ⟨rfl, rfl⟩).of_contains hcall hcontains

/-- A file is in the way when the first directory has been made. -/
theorem register_failure_leaves_half_way :
    let l : Layout := ⟨⟨"m".toList⟩, ⟨"n/../d/b".toList⟩, ⟨[]⟩, ⟨[]⟩, 4⟩
    let d : Disk := ⟨[([['d']], .file (Text.encode "x".toList))], []⟩
    let o := (l.register "tv".toList "1".toList "2".toList).run d
    o.value = .error (.directoryNotMade l.deviceDir .occupied) ∧
      o.disk.get? [['n']] = some .dir ∧ d.Keeps o.disk [] := by
  intro l d o
  have hvalue : o.value = .error (.directoryNotMade l.deviceDir .occupied) := by decide +kernel
  refine ⟨hvalue, by decide +kernel, ?_⟩
  rcases register_failure_leaves l "tv".toList "1".toList "2".toList d _ hvalue with
    hkeeps | ⟨hfailure, -⟩
  · exact hkeeps
  · -- the source is in no directory that could have been missing
    cases hfailure with
    | directory _ hdirectory => exact absurd hdirectory (by decide +kernel)

/-- A directory is in the way of the source.  When it is gone, the device cannot be registered, and
it could be if no one had tried before. -/
theorem register_failure_leaves_fragment :
    let l : Layout := ⟨⟨"main".toList⟩, ⟨"devices".toList⟩, ⟨[]⟩, ⟨[]⟩, 64⟩
    let fragment : Place := ["devices".toList, "ipad.dmcss".toList]
    let d : Disk := ⟨[(["main".toList], .dir)], []⟩
    let job := l.register "ipad".toList "1".toList "2".toList
    let left := (job.run d).disk
    (job.run d).value = .error (.notWritten l.source .isDirectory) ∧
      d.get? fragment = none ∧
      left.get? fragment = some (.file (fragmentStub "ipad".toList).encode) ∧
      (job.run (left.remove l.source)).value =
        .error (.fragmentExists ⟨"devices/ipad.dmcss".toList⟩) ∧
      (job.run (d.remove l.source)).value.toOption.isSome = true := by
  decide +kernel

end Layout

end DeviceSheet
