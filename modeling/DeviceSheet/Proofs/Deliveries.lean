import DeviceSheet.Proofs.Compilation
import DeviceSheet.Proofs.EnclosingPaths
import DeviceSheet.Proofs.WritingJobs

/-!
# Delivering the stylesheet and the script

A product is made from what is on the disk and is then put at a path.  Making it only looks at the
disk.  So a delivery has three ends (`Delivers`).

* The product cannot be made, and the disk is as it was.
* The product is made and cannot be put.  Directories may have been made by then.
* The product is put.

`Layout.failed_delivery_leaves` is about the first two.  The directories that were made are those
that the parents of the output path lead to (`Disk.AddsDirs`).

`Layout.delivery_of_old_state` is about the third.  The output path is walked twice, once for its
directory and once for the file, and it may lead to one of the files that the product is made from.
The product is made before all that, and it goes to one file (`Puts.delivered`).
-/

namespace DeviceSheet

variable {d d' : Disk}

/-! ## Directories around a path -/

namespace Disk

/-- The second disk has what the first has, and besides it directories that the paths lead to. -/
structure AddsDirs (d d' : Disk) (paths : List Path) : Prop where
  keeps : d.Keeps d' []
  named : ∀ q, d.get? q = none → d'.get? q ≠ none →
    ∃ p ∈ paths, d'.locate .find p = .ok ⟨q, some .dir⟩

variable {paths : List Path}

theorem AddsDirs.refl (d : Disk) (paths : List Path) : d.AddsDirs d paths :=
  ⟨.refl d, fun _ hnone hsome => absurd hnone hsome⟩

theorem AddsDirs.trans {d'' : Disk} (h : d.AddsDirs d' paths) (h' : d'.AddsDirs d'' paths) :
    d.AddsDirs d'' paths where
  keeps := h.keeps.trans h'.keeps
  named q hnone hsome := by
    by_cases hbefore : d'.get? q = none
    · exact h'.named q hbefore hsome
    · obtain ⟨p, hp, hlocate⟩ := h.named q hnone hbefore
      exact ⟨p, hp, h'.keeps.extends.grows.locate_dir hlocate⟩

theorem addsDirs_makeDir {p : Path} (hp : p ∈ paths) (h : d.makeDir p = .ok d') :
    d.AddsDirs d' paths := by
  refine ⟨keeps_makeDir h, fun q hnone hsome => ?_⟩
  obtain ⟨q', hfree, rfl, hlocate⟩ := locate_makeDir h
  rw [get?_insert d (ne_nil_of_get? hfree (by simp))] at hsome
  split at hsome
  · next heq =>
    subst heq
    exact ⟨p, hp, hlocate⟩
  · exact absurd hnone hsome

/-- What is made on the way to the directory of a path are directories around the path. -/
theorem addsDirs_directory {path : Path} {answer : Except Fault Unit}
    (h : d.makeDirs (path.directory?.getD ⟨[]⟩) = (answer, d')) : d.AddsDirs d' path.parents := by
  cases hdirectory : path.directory? with
  | none =>
    rw [hdirectory] at h
    cases h
    exact .refl d _
  | some directory =>
    rw [hdirectory] at h
    obtain ⟨hparent, -⟩ := Option.filter_eq_some_iff.1 hdirectory
    obtain ⟨others, hparents⟩ := List.head?_eq_some_iff.1 hparent
    have hmade := makeDirsAlong_rel (R := fun d d' => d.AddsDirs d' path.parents)
      (directory :: directory.parents) (fun d => .refl d _) .trans
      (fun hp => addsDirs_makeDir (by rwa [hparents, ← Path.parents_of_parents_eq_cons hparents])) d
    change d.makeDirs directory = (answer, d') at h
    rw [← makeDirs, h] at hmade
    exact hmade

end Disk

/-! ## The ends of a delivery -/

/-- How it ends to make a product and to put it at a path. -/
inductive Delivers (made : Except Failure Text) (output : Path) (d : Disk) :
    Except Failure Path → Disk → Prop
  | notMade {failure} : made = .error failure → Delivers made output d (.error failure) d
  | notPut {text failure d'} : made = .ok text →
      Puts output (fun _ => text.encode) d (.error failure) d' →
      Delivers made output d (.error failure) d'
  | done {text d'} : made = .ok text → Puts output (fun _ => text.encode) d (.ok ()) d' →
      Delivers made output d (.ok output) d'

/-- A job that only looks gives a value, its text is put, and an event is noted. -/
theorem delivers_of_ends {α : Type} {make : Job α} {made : Except Failure α} {text : α → Text}
    {event : α → Event} {output : Path} {result : Except Failure Path} (hmake : make.Looks d made)
    (h : Job.Ends (do
      let value ← make
      writeOutput output (text value)
      Action.note (event value)
      return output) d result d') : Delivers (made.map text) output d result d' := by
  cases made with
  | error failure =>
    rcases h.bind with ⟨failure', hfail, rfl⟩ | ⟨value, d₁, hvalue, -⟩
    · cases hmake.1.symm.trans hfail.1
      cases hmake.2.symm.trans hfail.2
      exact .notMade rfl
    · cases hmake.1.symm.trans hvalue.1
  | ok value =>
    rcases (h.bind_of_looks hmake).bind with ⟨failure, hputs, rfl⟩ | ⟨_, d₁, hputs, hend⟩
    · exact .notPut rfl (puts_writeOutput hputs)
    · obtain ⟨rfl, rfl⟩ := hend
      exact .done rfl (puts_writeOutput hputs)

theorem Delivers.of_ok {made : Except Failure Text} {output path : Path}
    (h : Delivers made output d (.ok path) d') :
    path = output ∧ ∃ text, made = .ok text ∧ Puts output (fun _ => text.encode) d (.ok ()) d' := by
  cases h with
  | done hmade hputs => exact ⟨rfl, _, hmade, hputs⟩

/-- A text that was put can be read. -/
theorem Puts.read {path : Path} {text : Text} (h : Puts path (fun _ => text.encode) d (.ok ()) d') :
    d'.read path = .ok text := by
  obtain ⟨_, -, hupdate⟩ := h.of_ok
  obtain ⟨q, _, -, -, -, hlocate⟩ := Disk.update_eq_ok hupdate
  exact Disk.read_eq_ok_iff.2 ⟨q, hlocate⟩

namespace Layout

variable {l : Layout} {output : Option Path} {result : Except Failure Path} {path : Path}

theorem delivers_compileTo (h : (l.compileTo output).Ends d result d') :
    Delivers ((l.compile.run d).value.map Compiled.stylesheet) (output.getD l.cssOutput) d
      result d' := by
  obtain ⟨_, hsource, -⟩ := l.looks_resolveSource d
  have hcompile := looks_compile hsource
  rw [hcompile.1]
  exact delivers_of_ends hcompile h

theorem delivers_generateScript (h : (l.generateScript output).Ends d result d') :
    Delivers ((l.deviceNames.run d).value.map Script.render) (output.getD l.scriptOutput) d
      result d' := by
  obtain ⟨_, hsource, -⟩ := l.looks_resolveSource d
  have hnames := looks_deviceNames hsource
  rw [hnames.1]
  exact delivers_of_ends hnames h

/-- A stylesheet that is delivered is the one that compiling gives. -/
theorem compileTo_eq_ok (h : (l.compileTo output).Ends d (.ok path) d') :
    path = output.getD l.cssOutput ∧ ∃ c, (l.compile.run d).value = .ok c ∧
      Puts path (fun _ => c.stylesheet.encode) d (.ok ()) d' := by
  obtain ⟨rfl, text, hmade, hputs⟩ := (delivers_compileTo h).of_ok
  obtain ⟨c, hcompile, rfl⟩ := exists_ok_of_map_eq_ok hmade
  exact ⟨rfl, c, hcompile, hputs⟩

/-- A script that is delivered is the one for the names of the devices. -/
theorem generateScript_eq_ok (h : (l.generateScript output).Ends d (.ok path) d') :
    path = output.getD l.scriptOutput ∧ ∃ names, (l.deviceNames.run d).value = .ok names ∧
      Puts path (fun _ => (Script.render names).encode) d (.ok ()) d' := by
  obtain ⟨rfl, text, hmade, hputs⟩ := (delivers_generateScript h).of_ok
  obtain ⟨names, hnames, rfl⟩ := exists_ok_of_map_eq_ok hmade
  exact ⟨rfl, names, hnames, hputs⟩

end Layout

/-! ## Deliveries that fail -/

/-- What a delivery that fails may have done to a disk. -/
structure FailsClosed (output : Path) (failure : Failure) (d d' : Disk) : Prop where
  /-- Files and links are as they were, and there are no others. -/
  others : ∀ q entry, entry ≠ .dir → (d'.get? q = some entry ↔ d.get? q = some entry)
  /-- Nothing is new unless the failure is on writing the output. -/
  unchanged : ¬ failure.OnWriting output → d' = d
  /-- What is new are directories, and the parents of the output lead to them. -/
  directories : d.AddsDirs d' output.parents

theorem Delivers.of_error {made : Except Failure Text} {output : Path} {failure : Failure}
    (h : Delivers made output d (.error failure) d') : FailsClosed output failure d d' := by
  have hadds : (¬ failure.OnWriting output → d' = d) ∧ d.AddsDirs d' output.parents := by
    cases h with
    | notMade => exact ⟨fun _ => rfl, .refl d _⟩
    | notPut _ hputs =>
      refine ⟨fun hwriting => absurd hputs.of_error.1 hwriting, ?_⟩
      cases hputs with
      | noDirectory hdirectory hmade =>
        exact Disk.addsDirs_directory (by rw [hdirectory]; exact hmade)
      | notWritten hmade => exact Disk.addsDirs_directory hmade
  obtain ⟨hunchanged, hadds⟩ := hadds
  exact ⟨fun q entry hentry => hadds.keeps.get?_eq_some_iff List.not_mem_nil hentry, hunchanged,
    hadds⟩

namespace Layout

/-- A stylesheet or a script that is not delivered leaves files and links as they were.  Only a
failure on writing the output leaves something new: directories that the parents of the output path
lead to. -/
theorem failed_delivery_leaves (l : Layout) (output : Option Path) (d : Disk) (failure : Failure) :
    (((l.compileTo output).run d).value = .error failure →
      FailsClosed (output.getD l.cssOutput) failure d ((l.compileTo output).run d).disk) ∧
    (((l.generateScript output).run d).value = .error failure →
      FailsClosed (output.getD l.scriptOutput) failure d ((l.generateScript output).run d).disk) :=
  ⟨fun h => (delivers_compileTo ⟨h, rfl⟩).of_error,
    fun h => (delivers_generateScript ⟨h, rfl⟩).of_error⟩

/-- The source is in the way of a directory for the stylesheet when the first directory has been
made.  The script is to be a directory. -/
theorem failed_delivery_leaves_half_way :
    let l : Layout := ⟨⟨"m".toList⟩, ⟨"d".toList⟩, ⟨"n/../m/o/css".toList⟩, ⟨"s/js/".toList⟩, 4⟩
    let d : Disk := ⟨[
      ([['m']], .file (Text.encode "$$device(name: \"a\", width: 1, height: 2)".toList)),
      ([['d']], .dir),
      ([['d'], "a.dmcss".toList], .file (Text.encode "b".toList))], []⟩
    let css := (l.compileTo none).run d
    let script := (l.generateScript none).run d
    (css.value = .error (.directoryNotMade ⟨"n/../m/o".toList⟩ .occupied) ∧
      css.disk.get? [['n']] = some .dir ∧
      script.value = .error (.notWritten l.scriptOutput .isDirectory) ∧
      script.disk.get? [['s']] = some .dir) ∧
    FailsClosed l.cssOutput (.directoryNotMade ⟨"n/../m/o".toList⟩ .occupied) d css.disk ∧
    FailsClosed l.scriptOutput (.notWritten l.scriptOutput .isDirectory) d script.disk := by
  intro l d css script
  have hruns : css.value = .error (.directoryNotMade ⟨"n/../m/o".toList⟩ .occupied) ∧
      css.disk.get? [['n']] = some .dir ∧
      script.value = .error (.notWritten l.scriptOutput .isDirectory) ∧
      script.disk.get? [['s']] = some .dir := by decide +kernel
  exact ⟨hruns, (failed_delivery_leaves l none d _).1 hruns.1,
    (failed_delivery_leaves l none d _).2 hruns.2.2.1⟩

end Layout

/-! ## Deliveries that succeed -/

/-- What a delivery that succeeds has done to a disk. -/
structure Delivered (output : Path) (text : Text) (d d' : Disk) : Prop where
  /-- The output has the text. -/
  read : d'.read output = .ok text
  /-- The output leads where it led before, if it led to anything. -/
  place : ∀ q, d.place? output = some q → d'.place? output = some q
  /-- All other files are as they were, and there are no others. -/
  files : ∀ q bytes, d'.place? output ≠ some q →
    (d'.get? q = some (.file bytes) ↔ d.get? q = some (.file bytes))
  /-- Links are as they were, and there are no others. -/
  links : ∀ q target, d'.get? q = some (.link target) ↔ d.get? q = some (.link target)
  /-- Directories are as they were. -/
  directories : ∀ q, d.get? q = some .dir → d'.get? q = some .dir
  /-- What is new is the output, or a directory that a parent of the output leads to. -/
  new : ∀ q, d.get? q = none → d'.get? q ≠ none →
    d'.place? output = some q ∨ ∃ p ∈ output.parents, d'.locate .find p = .ok ⟨q, some .dir⟩

/-- A text that was put has been delivered. -/
theorem Puts.delivered {output : Path} {text : Text}
    (h : Puts output (fun _ => text.encode) d (.ok ()) d') : Delivered output text d d' := by
  have hread := h.read
  cases h with
  | @done d₁ _ hmade hupdate =>
    have hadds := Disk.addsDirs_directory hmade
    have hgrows₁ := Disk.grows_update hupdate
    have hgrows := hadds.keeps.extends.grows.trans hgrows₁
    obtain ⟨place, _, hne, -, rfl, hlocate⟩ := Disk.update_eq_ok hupdate
    have hplace : (d₁.insert place (.file text.encode)).place? output = some place := by
      rw [Disk.place?, hlocate]
    have hkeeps : d.Keeps (d₁.insert place (.file text.encode)) [place] :=
      hadds.keeps.trans (.insert hne _)
    refine ⟨hread, fun q => hgrows.place?, fun q bytes hq => ?_, fun q target => ?_,
      fun q => hgrows.dir, fun q hnone hsome => ?_⟩
    · rw [hplace] at hq
      exact hkeeps.get?_eq_some_iff (by simpa [eq_comm] using hq) (by simp)
    · by_cases hq : q = place
      · -- a file stands there now, so there was no link before
        have hget := Disk.get?_insert d₁ hne (.file text.encode) q
        rw [if_pos hq] at hget
        refine ⟨fun hlink => ?_, fun hlink => hgrows.link hlink⟩
        cases hget.symm.trans hlink
      · exact hkeeps.get?_eq_some_iff (by simpa using hq) (by simp)
    · by_cases hq : q = place
      · exact .inl (by rw [hplace, hq])
      · rw [Disk.get?_insert d₁ hne, if_neg hq] at hsome
        obtain ⟨p, hp, hdir⟩ := hadds.named q hnone hsome
        exact .inr ⟨p, hp, hgrows₁.locate_dir hdir⟩

namespace Layout

/-- A stylesheet or a script that is delivered is the one that the disk before the delivery calls
for, also if the output is one of the files that it was made from.  Nothing else is changed. -/
theorem delivery_of_old_state (l : Layout) (output : Option Path) (d : Disk) (path : Path) :
    (((l.compileTo output).run d).value = .ok path →
      path = output.getD l.cssOutput ∧ ∃ c, (l.compile.run d).value = .ok c ∧
        Delivered path (c.residual ++ '\n' :: c.css) d ((l.compileTo output).run d).disk) ∧
    (((l.generateScript output).run d).value = .ok path →
      path = output.getD l.scriptOutput ∧ ∃ names, (l.deviceNames.run d).value = .ok names ∧
        Delivered path (Script.render names) d ((l.generateScript output).run d).disk) := by
  constructor
  · intro h
    obtain ⟨hpath, c, hcompile, hputs⟩ := compileTo_eq_ok ⟨h, rfl⟩
    exact ⟨hpath, c, hcompile, hputs.delivered⟩
  · intro h
    obtain ⟨hpath, names, hnames, hputs⟩ := generateScript_eq_ok ⟨h, rfl⟩
    exact ⟨hpath, names, hnames, hputs.delivered⟩

/-- The stylesheet goes to the source, behind a link and a directory that has to be made first.  The
script goes to the fragment of a device. -/
theorem delivery_of_old_state_onto_sources :
    let l : Layout :=
      ⟨⟨"m".toList⟩, ⟨"d".toList⟩, ⟨"n/../s".toList⟩, ⟨"d/a.dmcss".toList⟩, 4⟩
    let d : Disk := ⟨[
      ([['m']], .file (Text.encode "x$$device(name: \"a\", width: 1, height: 2)".toList)),
      ([['d']], .dir),
      ([['d'], "a.dmcss".toList], .file (Text.encode "b".toList)),
      ([['s']], .link ⟨"m".toList⟩)], []⟩
    let devices : List Device := [⟨⟨['a'], ['1'], ['2']⟩, ['b']⟩]
    let c : Compiled := ⟨⟨devices, ['x']⟩, Device.mediaBlocks devices⟩
    let css := (l.compileTo none).run d
    let script := (l.generateScript none).run d
    ((l.compile.run d).value = .ok c ∧ css.value = .ok l.cssOutput ∧
      d.place? l.cssOutput = none ∧ css.disk.place? l.cssOutput = d.place? l.source ∧
      (l.deviceNames.run d).value = .ok [['a']] ∧ script.value = .ok l.scriptOutput) ∧
    Delivered l.cssOutput (c.residual ++ '\n' :: c.css) d css.disk ∧
    Delivered l.scriptOutput (Script.render [['a']]) d script.disk := by
  intro l d devices c css script
  have hruns : (l.compile.run d).value = .ok c ∧ css.value = .ok l.cssOutput ∧
      d.place? l.cssOutput = none ∧ css.disk.place? l.cssOutput = d.place? l.source ∧
      (l.deviceNames.run d).value = .ok [['a']] ∧ script.value = .ok l.scriptOutput := by
    decide +kernel
  obtain ⟨hcompile, hcss, hfree, hplace, hnames, hscript⟩ := hruns
  obtain ⟨-, c', hcompile', hstylesheet⟩ := (delivery_of_old_state l none d l.cssOutput).1 hcss
  obtain ⟨-, names, hnames', hdelivered⟩ := (delivery_of_old_state l none d l.scriptOutput).2 hscript
  cases hcompile.symm.trans hcompile'
  cases hnames.symm.trans hnames'
  exact ⟨⟨hcompile, hcss, hfree, hplace, hnames, hscript⟩, hstylesheet, hdelivered⟩

end Layout

end DeviceSheet
