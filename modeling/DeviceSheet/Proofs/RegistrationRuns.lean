import DeviceSheet.Proofs.Compilation
import DeviceSheet.Proofs.WritingJobs

/-!
# Registering device after device

A project that compiles goes on compiling while devices are registered, whatever names and
dimensions are given and whatever fails on the way.  Each device that is registered is called
behind all others.

The step has two halves.  `Layout.leaves_register` says what one registration leaves on the disk.
If it fails, the disk has what it had before.  If it succeeds, there is a new fragment, and
the main source has one more line.  `Layout.Compiles.extend` and `Layout.Compiles.append_line` say
what that means for compiling.

A source is never among its own imports, since it would have to be of less height than
itself.  So the imports of the source read the same before and after a line is added to it.  A
fragment may well be the source.  It can be read then as before, with another text.
-/

namespace DeviceSheet

/-! ## What a job leaves -/

namespace Job

variable {α : Type} {d : Disk}

/-- The job fails and leaves a disk with the one property, or it has a value and leaves a disk
with the other. -/
def Leaves (job : Job α) (d : Disk) (failed : Disk → Prop) (done : α → Disk → Prop) : Prop :=
  match (job.run d).value with
  | .ok value => done value (job.run d).disk
  | .error _ => failed (job.run d).disk

theorem Leaves.imp {job : Job α} {failed failed' : Disk → Prop} {done done' : α → Disk → Prop}
    (h : job.Leaves d failed done) (hfailed : ∀ d', failed d' → failed' d')
    (hdone : ∀ value d', done value d' → done' value d') : job.Leaves d failed' done' := by
  unfold Leaves at h ⊢
  cases hvalue : (job.run d).value with
  | error failure =>
    rw [hvalue] at h
    exact hfailed _ h
  | ok value =>
    rw [hvalue] at h
    exact hdone value _ h

end Job

/-! ## One registration -/

section

variable {d : Disk} {q : Place} {s : Text}

/-- A registration that fails takes nothing away.  One that succeeds leaves a fragment and a line
at the end of the source. -/
theorem Layout.leaves_register {l : Layout} (hdir : d.hasDir l.deviceDir = true)
    (hsource : d.Holds l.source q s) (name width height : Text) :
    (l.register name width height).Leaves d (d.Extends ·) fun _ d' =>
      ∃ call d₁, DeviceCall.checked name width height = .ok call ∧ d.Extends d₁ ∧
        call.Readable d₁ l.deviceDir ∧
        d' = d₁.insert q (.file (s ++ call.line).encode) := by
  have hregisters : l.Registers name width height d _ _ := registers ⟨rfl, rfl⟩
  unfold Job.Leaves
  generalize ((l.register name width height).run d).value = result at hregisters ⊢
  generalize ((l.register name width height).run d).disk = d' at hregisters ⊢
  -- the directory is there, so nothing is made
  have hsame : ∀ {answer d₁}, d.makeDirs l.deviceDir = (answer, d₁) → answer = .ok () ∧ d₁ = d := by
    intro answer d₁ hmade
    cases (Disk.makeDirs_of_hasDir hdir).symm.trans hmade
    exact ⟨rfl, rfl⟩
  cases hregisters with
  | invalid | taken => exact .refl d
  | noDirectory _ _ hmade => cases (hsame hmade).1
  | noFragment _ _ hmade _ =>
    obtain ⟨-, rfl⟩ := hsame hmade
    exact .refl _
  | noLine _ hfree hmade hwrite hputs =>
    obtain ⟨-, rfl⟩ := hsame hmade
    obtain ⟨hextends, -⟩ := Disk.write_of_not_contains hfree hwrite
    exact hextends.trans hputs.of_error.2.extends
  | @done call _ _ _ hcall hfree hmade hwrite hputs =>
    obtain ⟨-, rfl⟩ := hsame hmade
    obtain ⟨-, rfl, -, -⟩ := DeviceCall.checked_eq_ok_iff.1 hcall
    obtain ⟨hextends, hread⟩ := Disk.write_of_not_contains hfree hwrite
    obtain ⟨d₁, hkeeps, happend⟩ := hputs.of_ok
    have hextends₁ := hextends.trans hkeeps.extends
    cases ((hsource.extend hextends₁).append call.line).symm.trans happend
    exact ⟨call, d₁, hcall, hextends₁, ⟨_, hkeeps.extends.read hread⟩, rfl⟩

end

/-! ## Compiling after a registration -/

/-- An expansion is the same on a disk where the files of less height read the same. -/
theorem Expands.transfer {d d' : Disk} {base : Path} {tokens : List Token} {r : Text} {n : Nat}
    (h : Expands d base tokens r n)
    (hread : ∀ path text inlined m, d.read path = .ok text →
      Expands d base (scan text) inlined m → m < n → d'.read path = .ok text) :
    Expands d' base tokens r n := by
  induction h with
  | nil => exact .nil
  | keep htoken _ ih => exact .keep htoken (ih hread)
  | inline htext hinner _ ihinner ihrest =>
    refine .inline (hread _ _ _ _ htext hinner (by omega)) (ihinner ?_) (ihrest ?_)
    · intro path text inlined m hpath hexpands hlt
      exact hread path text inlined m hpath hexpands (by omega)
    · intro path text inlined m hpath hexpands hlt
      exact hread path text inlined m hpath hexpands (by omega)

namespace Layout

variable {l : Layout} {d d' : Disk} {cs : List DeviceCall}

/-- What is added to a disk does not matter. -/
theorem Compiles.extend (h : l.Compiles d cs) (hextends : d.Extends d') : l.Compiles d' cs := by
  obtain ⟨s, r, height, hread, hle, hexpands, hcalls, hreadable⟩ := compiles_iff.1 h
  refine compiles_iff.2 ⟨s, r, height, hextends.read hread, hle, ?_, hcalls, ?_⟩
  · exact hexpands.transfer fun _ _ _ _ hpath _ _ => hextends.read hpath
  · intro call hcall
    obtain ⟨fragment, hfragment⟩ := hreadable call hcall
    exact ⟨fragment, hextends.read hfragment⟩

/-- A line with a new call at the end of the source adds the call. -/
theorem Compiles.append_line {name width height s : Text} {q : Place} {call : DeviceCall}
    (h : l.Compiles d cs) (hsource : d.Holds l.source q s)
    (hcall : DeviceCall.checked name width height = .ok call)
    (hfragment : call.Readable d l.deviceDir) :
    l.Compiles (d.insert q (.file (s ++ call.line).encode)) (cs ++ [call]) := by
  obtain ⟨s', r, n, hread, hle, hexpands, rfl, hreadable⟩ := compiles_iff.1 h
  obtain rfl : s = s' := by
    have hs := Disk.read_eq_ok_iff.2 ⟨q, hsource⟩
    rw [hread] at hs
    exact (Except.ok.inj hs).symm
  -- a file of less height than the source is another file
  have hkeep : ∀ path text inlined m, d.read path = .ok text →
      Expands d l.baseDir (scan text) inlined m → m < n →
      (d.insert q (.file (s ++ call.line).encode)).read path = .ok text := by
    intro path text inlined m hpath hinner hlt
    obtain ⟨q', hq'⟩ := Disk.read_eq_ok_iff.1 hpath
    refine Disk.read_eq_ok_iff.2 ⟨q', hq'.insert_other hsource.get? ?_ _⟩
    rintro rfl
    have hsame : some (Entry.file text.encode) = some (.file s.encode) :=
      hq'.get?.symm.trans hsource.get?
    obtain rfl := Text.encode_injective (Entry.file.inj (Option.some.inj hsame))
    obtain ⟨-, rfl⟩ := hinner.unique hexpands
    omega
  have hfragments : ∀ call' : DeviceCall, call'.Readable d l.deviceDir →
      call'.Readable (d.insert q (.file (s ++ call.line).encode)) l.deviceDir := by
    rintro call' ⟨fragment, hfragment⟩
    obtain ⟨q', hq'⟩ := Disk.read_eq_ok_iff.1 hfragment
    by_cases hsame : q' = q
    · subst hsame
      exact ⟨_, Disk.read_eq_ok_iff.2 ⟨q', hq'.insert_same _⟩⟩
    · exact ⟨_, Disk.read_eq_ok_iff.2 ⟨q', hq'.insert_other hsource.get? hsame _⟩⟩
  refine compiles_iff.2 ⟨s ++ call.line, r ++ call.line, n,
    Disk.read_eq_ok_iff.2 ⟨q, hsource.insert_same _⟩, hle,
    DeviceCall.expands_append_of_checked hcall (hexpands.transfer hkeep),
    DeviceCall.calls_append_of_checked hcall r, ?_⟩
  intro call' hcall'
  rcases List.mem_append.1 hcall' with hcall' | hcall'
  · exact hfragments call' (hreadable call' hcall')
  · rw [List.mem_singleton.1 hcall']
    exact hfragments call hfragment

/-- The project has a directory for its fragments, and it compiles to devices with these calls. -/
structure InOrder (l : Layout) (d : Disk) (cs : List DeviceCall) : Prop where
  dir : d.hasDir l.deviceDir = true
  compiles : l.Compiles d cs

/-- One registration adds its call, or it fails and adds none. -/
theorem InOrder.register (h : l.InOrder d cs) (name width height : Text) :
    (l.register name width height).Leaves d (l.InOrder · cs) fun _ d' =>
      ∃ call, DeviceCall.checked name width height = .ok call ∧ l.InOrder d' (cs ++ [call]) := by
  obtain ⟨s, _, _, hread, _⟩ := compiles_iff.1 h.compiles
  obtain ⟨q, hsource⟩ := Disk.read_eq_ok_iff.1 hread
  refine (leaves_register h.dir hsource name width height).imp ?_ ?_
  · intro d' hextends
    exact ⟨hextends.grows.hasDir h.dir, h.compiles.extend hextends⟩
  · rintro _ _ ⟨call, d₁, hcall, hextends, hfragment, rfl⟩
    have hsource' := hsource.extend hextends
    have hgrows := Disk.Grows.insert hsource'.get? (s ++ call.line).encode
    exact ⟨call, hcall, hgrows.hasDir (hextends.grows.hasDir h.dir),
      (h.compiles.extend hextends).append_line hsource' hcall hfragment⟩

end Layout

/-! ## Many registrations -/

/-- What is given to register a device. -/
structure Draft where
  name : Text
  width : Text
  height : Text
deriving DecidableEq

/-- The call has the name of the draft and its dimensions in their usual form. -/
structure Draft.Gives (draft : Draft) (call : DeviceCall) : Prop where
  name : call.name = draft.name
  width : dimension draft.width = .ok call.width
  height : dimension draft.height = .ok call.height

/-- A draft gives one call. -/
theorem Draft.Gives.unique {draft : Draft} {call call' : DeviceCall} (h : draft.Gives call)
    (h' : draft.Gives call') : call = call' := by
  obtain ⟨name, width, height⟩ := call
  obtain ⟨name', width', height'⟩ := call'
  cases h.name.trans h'.name.symm
  cases h.width.symm.trans h'.width
  cases h.height.symm.trans h'.height
  rfl

namespace Layout

/-- Registers devices one after the other.  A failure does not keep the next from being
registered. -/
def registerAll (l : Layout) (drafts : List Draft) :
    Action (List (Draft × Except Failure Registration)) :=
  drafts.mapM fun draft => do
    let result ← ExceptT.run (l.register draft.name draft.width draft.height)
    return (draft, result)

/-- The drafts that were registered, in order. -/
def registered (results : List (Draft × Except Failure Registration)) : List Draft :=
  results.filterMap fun result => result.2.toOption.map fun _ => result.1

theorem run_registerAll_cons (l : Layout) (draft : Draft) (drafts : List Draft) (d : Disk) :
    let first := (l.register draft.name draft.width draft.height).run d
    let others := (l.registerAll drafts).run first.disk
    ((l.registerAll (draft :: drafts)).run d).value = (draft, first.value) :: others.value ∧
      ((l.registerAll (draft :: drafts)).run d).disk = others.disk := by
  intro first others
  simp only [registerAll, List.mapM_cons, Action.run_bind, Action.run_pure]
  exact ⟨rfl, rfl⟩

/-- Each draft has its result. -/
theorem map_fst_registerAll (l : Layout) (drafts : List Draft) (d : Disk) :
    ((l.registerAll drafts).run d).value.map Prod.fst = drafts := by
  induction drafts generalizing d with
  | nil => rfl
  | cons draft drafts ih =>
    rw [(run_registerAll_cons l draft drafts d).1, List.map_cons, ih]

variable {l : Layout} {d : Disk} {cs : List DeviceCall}

/-- Registrations add the calls of the drafts that were registered. -/
theorem InOrder.registerAll (h : l.InOrder d cs) (drafts : List Draft) :
    ∃ added, l.InOrder ((l.registerAll drafts).run d).disk (cs ++ added) ∧
      List.Forall₂ Draft.Gives (registered ((l.registerAll drafts).run d).value) added := by
  induction drafts generalizing d cs with
  | nil => exact ⟨[], by simpa [Layout.registerAll] using h, .nil⟩
  | cons draft drafts ih =>
    obtain ⟨hvalue, hdisk⟩ := run_registerAll_cons l draft drafts d
    rw [hvalue, hdisk]
    have hfirst := h.register draft.name draft.width draft.height
    unfold Job.Leaves at hfirst
    cases hresult : ((l.register draft.name draft.width draft.height).run d).value with
    | error failure =>
      rw [hresult] at hfirst
      exact ih hfirst
    | ok registration =>
      rw [hresult] at hfirst
      obtain ⟨call, hcall, hfirst⟩ := hfirst
      obtain ⟨_, hname, hwidth, hheight⟩ := DeviceCall.checked_eq_ok_iff.1 hcall
      obtain ⟨added, hadded, hgives⟩ := ih hfirst
      refine ⟨call :: added, ?_, .cons ⟨hname, hwidth, hheight⟩ hgives⟩
      rw [List.append_assoc] at hadded
      exact hadded

/-- A project with a directory for its fragments that compiles goes on compiling, whatever is
registered and whatever fails.  The devices are those from before and then one for each draft that
was registered. -/
theorem compile_after_registerAll (l : Layout) (d : Disk) (c : Compiled)
    (hdir : d.hasDir l.deviceDir = true) (hcompile : (l.compile.run d).value = .ok c)
    (drafts : List Draft) :
    let run := (l.registerAll drafts).run d
    run.value.map Prod.fst = drafts ∧
    ∃ c' added, (l.compile.run run.disk).value = .ok c' ∧
      c'.devices.map Device.call = c.devices.map Device.call ++ added ∧
      List.Forall₂ Draft.Gives (registered run.value) added := by
  intro run
  have hstart : l.InOrder d (c.devices.map Device.call) := ⟨hdir, c, hcompile, rfl⟩
  obtain ⟨added, ⟨_, c', hcompile', hcalls⟩, hgives⟩ := hstart.registerAll drafts
  exact ⟨map_fst_registerAll l drafts d, c', added, hcompile', hcalls, hgives⟩

/-- The source breaks off in an import, and two of four registrations fail. -/
theorem compile_after_registerAll_broken_end :
    let l : Layout := ⟨⟨"/m".toList⟩, ⟨"/d".toList⟩, ⟨[]⟩, ⟨[]⟩, 4⟩
    let d : Disk := ⟨[
      ([['m']], .file (Text.encode
        "$$device(name: \"a\", width: 1px, height: 2px)@import \"x".toList)),
      ([['d']], .dir),
      ([['d'], "a.dmcss".toList], .file (Text.encode "b".toList))], []⟩
    let tv : Draft := ⟨"tv".toList, " 50% ".toList, "30".toList⟩
    let pad : Draft := ⟨"pad".toList, "7em".toList, "9".toList⟩
    let drafts := [tv, ⟨"a".toList, "1".toList, "2".toList⟩, ⟨"b b".toList, [], []⟩, pad]
    let run := (l.registerAll drafts).run d
    d.hasDir l.deviceDir = true ∧ registered run.value = [tv, pad] ∧
    ∃ c c', (l.compile.run d).value = .ok c ∧ (l.compile.run run.disk).value = .ok c' ∧
      c'.devices.map Device.call = c.devices.map Device.call ++
        [⟨"tv".toList, "50%".toList, "30px".toList⟩,
          ⟨"pad".toList, "7em".toList, "9px".toList⟩] := by
  intro l d tv pad drafts run
  have hdir : d.hasDir l.deviceDir = true := by decide +kernel
  have hregistered : registered run.value = [tv, pad] := by decide +kernel
  have hcompile : (l.compile.run d).value.toOption.isSome = true := by decide +kernel
  cases hc : (l.compile.run d).value with
  | error failure =>
    rw [hc] at hcompile
    cases hcompile
  | ok c =>
    obtain ⟨-, c', added, hc', hcalls, hgives⟩ := compile_after_registerAll l d c hdir hc drafts
    refine ⟨hdir, hregistered, c, c', rfl, hc', ?_⟩
    rw [hregistered] at hgives
    obtain ⟨_, _, htv, hrest, rfl⟩ := List.forall₂_cons_left_iff.1 hgives
    obtain ⟨_, _, hpad, hnone, rfl⟩ := List.forall₂_cons_left_iff.1 hrest
    obtain rfl := List.forall₂_nil_left_iff.1 hnone
    have htv' : tv.Gives ⟨"tv".toList, "50%".toList, "30px".toList⟩ :=
      ⟨rfl, by decide +kernel, by decide +kernel⟩
    have hpad' : pad.Gives ⟨"pad".toList, "7em".toList, "9px".toList⟩ :=
      ⟨rfl, by decide +kernel, by decide +kernel⟩
    rw [hcalls, htv.unique htv', hpad.unique hpad']

end Layout

end DeviceSheet
