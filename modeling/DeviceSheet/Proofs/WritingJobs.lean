import DeviceSheet.Proofs.AppendedCall
import DeviceSheet.Proofs.DiskGrowth
import DeviceSheet.Proofs.Reading

/-!
# Jobs that write

A job that writes makes some requests, and each may fail when others have been answered already.
What such a job can come to is said here once.

* A file gets new bytes after the directory of its path has been made (`Puts`).  If it does not,
  directories are made at most (`Puts.of_error`).
* A registration writes a fragment and then adds a line to the source (`Layout.Registers`).  What it
  keeps and what it leaves is then a matter of cases.
-/

namespace DeviceSheet

variable {d d' : Disk}

/-! ## How a job ends -/

namespace Job

variable {α β : Type} {job : Job α} {f : α → Job β} {result : Except Failure β}

/-- Run on the first disk, the job has the result and leaves the second disk. -/
def Ends (job : Job α) (d : Disk) (result : Except Failure α) (d' : Disk) : Prop :=
  (job.run d).value = result ∧ (job.run d).disk = d'

/-- Two jobs in a row end with the first one if it fails. -/
theorem Ends.bind (h : Ends (job >>= f) d result d') :
    (∃ failure, job.Ends d (.error failure) d' ∧ result = .error failure) ∨
      ∃ value d₁, job.Ends d (.ok value) d₁ ∧ (f value).Ends d₁ result d' := by
  unfold Ends at h ⊢
  rw [run_bind] at h
  cases hvalue : (job.run d).value with
  | error failure =>
    rw [hvalue] at h
    exact .inl ⟨failure, ⟨rfl, h.2⟩, h.1.symm⟩
  | ok value =>
    rw [hvalue] at h
    exact .inr ⟨value, _, ⟨rfl, rfl⟩, h⟩

/-- What is looked up first is known to the second job. -/
theorem Ends.bind_of_looks {value : α} (h : Ends (job >>= f) d result d')
    (hlooks : job.Looks d (.ok value)) : (f value).Ends d result d' := by
  obtain ⟨hvalue, hdisk⟩ := hlooks
  unfold Ends at h ⊢
  rw [run_bind, hvalue] at h
  rw [hdisk] at h
  exact h

/-- A request as a job. -/
theorem run_attempt (failure : Fault → Failure) (a : Action (Except Fault α)) (d : Disk) :
    Job.run (attempt failure a) d =
      ⟨(a.run d).value.mapError failure, (a.run d).disk, (a.run d).requests⟩ := by
  change (a >>= fun answer => pure (answer.mapError failure)).run d = _
  rw [Action.run_bind, Action.run_pure, List.append_nil]

/-- Directories are made first. -/
theorem Ends.bind_makeDirs {failure : Fault → Failure} {p : Path} {f : Unit → Job β}
    (h : Ends (attempt failure (Action.makeDirs p) >>= f) d result d') :
    (∃ fault, d.makeDirs p = (.error fault, d') ∧ result = .error (failure fault)) ∨
      ∃ d₁, d.makeDirs p = (.ok (), d₁) ∧ (f ()).Ends d₁ result d' := by
  have hrun : Job.run (attempt failure (Action.makeDirs p)) d =
      ⟨(d.makeDirs p).1.mapError failure, (d.makeDirs p).2, [.makeDirs p]⟩ := rfl
  unfold Ends at h
  rw [run_bind, hrun] at h
  generalize d.makeDirs p = made at h ⊢
  rcases made with ⟨fault | _, d₁⟩
  · obtain ⟨rfl, rfl⟩ := h
    exact .inl ⟨fault, rfl, rfl⟩
  · exact .inr ⟨d₁, rfl, h⟩

/-- A file is changed, or there is a fault and the disk is as it was. -/
theorem settle_cases {failure : Fault → Failure} {change : Except Fault Disk}
    {result : Except Failure Unit}
    (h : (d.settle change).1.mapError failure = result ∧ (d.settle change).2 = d') :
    (∃ fault, change = .error fault ∧ result = .error (failure fault) ∧ d' = d) ∨
      change = .ok d' ∧ result = .ok () := by
  obtain ⟨rfl, rfl⟩ := h
  cases change with
  | error fault => exact .inl ⟨fault, rfl, rfl, rfl⟩
  | ok _ => exact .inr ⟨rfl, rfl⟩

/-- A file is written first. -/
theorem Ends.bind_write {failure : Fault → Failure} {p : Path} {t : Text} {f : Unit → Job β}
    (h : Ends (attempt failure (Action.write p t) >>= f) d result d') :
    (∃ fault, d.write p t.encode = .error fault ∧ result = .error (failure fault) ∧ d' = d) ∨
      ∃ d₁, d.write p t.encode = .ok d₁ ∧ (f ()).Ends d₁ result d' := by
  rcases h.bind with ⟨failure', hwrite, rfl⟩ | ⟨_, d₁, hwrite, hrest⟩
  · rcases settle_cases hwrite with ⟨fault, hfault, hfailure, hdisk⟩ | ⟨-, hfailure⟩
    · cases hfailure
      exact .inl ⟨fault, hfault, rfl, hdisk⟩
    · cases hfailure
  · rcases settle_cases hwrite with ⟨_, -, hfailure, -⟩ | ⟨hdone, -⟩
    · cases hfailure
    · exact .inr ⟨d₁, hdone, hrest⟩

end Job

/-! ## Putting bytes into a file -/

/-- How it ends to make the directory of a path and then change the bytes of the file. -/
inductive Puts (path : Path) (change : Bytes → Bytes) (d : Disk) :
    Except Failure Unit → Disk → Prop
  | noDirectory {directory fault d'} : path.directory? = some directory →
      d.makeDirs directory = (.error fault, d') →
      Puts path change d (.error (.directoryNotMade directory fault)) d'
  | notWritten {fault d'} : d.makeDirs (path.directory?.getD ⟨[]⟩) = (.ok (), d') →
      d'.update path change = .error fault →
      Puts path change d (.error (.notWritten path fault)) d'
  | done {d₁ d'} : d.makeDirs (path.directory?.getD ⟨[]⟩) = (.ok (), d₁) →
      d₁.update path change = .ok d' → Puts path change d (.ok ()) d'

/-- The failure is that a path could not be written to. -/
inductive Failure.OnWriting (path : Path) : Failure → Prop
  | directory {directory : Path} (cause : Fault) : path.directory? = some directory →
      OnWriting path (.directoryNotMade directory cause)
  | file (cause : Fault) : OnWriting path (.notWritten path cause)

/-- Where a file cannot be changed, directories are made at most. -/
theorem Puts.of_error {path : Path} {change : Bytes → Bytes} {failure : Failure}
    (h : Puts path change d (.error failure) d') :
    failure.OnWriting path ∧ d.Keeps d' [] := by
  cases h with
  | noDirectory hdirectory hmade => exact ⟨.directory _ hdirectory, Disk.keeps_makeDirs hmade⟩
  | notWritten hmade _ => exact ⟨.file _, Disk.keeps_makeDirs hmade⟩

/-- Where a file is changed, directories are made at most before that. -/
theorem Puts.of_ok {path : Path} {change : Bytes → Bytes} (h : Puts path change d (.ok ()) d') :
    ∃ d₁, d.Keeps d₁ [] ∧ d₁.update path change = .ok d' := by
  cases h with
  | done hmade hupdate => exact ⟨_, Disk.keeps_makeDirs hmade, hupdate⟩

/-- The directory of a path is made, and then the bytes of the file are changed by one request. -/
theorem puts_of_ends {path : Path} {change : Bytes → Bytes} {put : Action (Except Fault Unit)}
    {result : Except Failure Unit}
    (hput : ∀ d, ((put.run d).value, (put.run d).disk) = d.settle (d.update path change))
    (h : Job.Ends (do
      if let some directory := path.directory? then
        attempt (.directoryNotMade directory) (Action.makeDirs directory)
      attempt (.notWritten path) put) d result d') : Puts path change d result d' := by
  have hlast : ∀ {d₁}, d.makeDirs (path.directory?.getD ⟨[]⟩) = (.ok (), d₁) →
      Job.Ends (attempt (.notWritten path) put) d₁ result d' → Puts path change d result d' := by
    intro d₁ hmade hend
    obtain ⟨hvalue, hdisk⟩ := Prod.mk.inj (hput d₁)
    rw [Job.Ends, Job.run_attempt, hvalue, hdisk] at hend
    rcases Job.settle_cases hend with ⟨fault, hchange, rfl, rfl⟩ | ⟨hchange, rfl⟩
    · exact .notWritten hmade hchange
    · exact .done hmade hchange
  cases hdirectory : path.directory? with
  | none =>
    rw [hdirectory] at h hlast
    exact hlast rfl h
  | some directory =>
    rw [hdirectory] at h hlast
    rcases h.bind_makeDirs with ⟨fault, hmade, rfl⟩ | ⟨d₁, hmade, hend⟩
    · exact .noDirectory hdirectory hmade
    · exact hlast hmade hend

theorem puts_appendLine {path : Path} {line : Text} {result : Except Failure Unit}
    (h : (appendLine path line).Ends d result d') :
    Puts path (· ++ Text.encode ('\n' :: line ++ ['\n'])) d result d' :=
  puts_of_ends (fun _ => rfl) h

theorem puts_writeOutput {path : Path} {text : Text} {result : Except Failure Unit}
    (h : (writeOutput path text).Ends d result d') :
    Puts path (fun _ => text.encode) d result d' :=
  puts_of_ends (fun _ => rfl) h

/-! ## Registering a device -/

/-- How it ends to register a device. -/
inductive Layout.Registers (l : Layout) (name width height : Text) (d : Disk) :
    Except Failure Registration → Disk → Prop
  | invalid {failure} : DeviceCall.checked name width height = .error failure →
      Registers l name width height d (.error failure) d
  | taken {call} : DeviceCall.checked name width height = .ok call →
      d.contains (fragmentPath l.deviceDir name) = true →
      Registers l name width height d
        (.error (.fragmentExists (fragmentPath l.deviceDir name))) d
  | noDirectory {call fault d'} : DeviceCall.checked name width height = .ok call →
      d.contains (fragmentPath l.deviceDir name) = false →
      d.makeDirs l.deviceDir = (.error fault, d') →
      Registers l name width height d (.error (.directoryNotMade l.deviceDir fault)) d'
  | noFragment {call fault d'} : DeviceCall.checked name width height = .ok call →
      d.contains (fragmentPath l.deviceDir name) = false →
      d.makeDirs l.deviceDir = (.ok (), d') →
      d'.write (fragmentPath l.deviceDir name) (fragmentStub name).encode = .error fault →
      Registers l name width height d
        (.error (.notWritten (fragmentPath l.deviceDir name) fault)) d'
  | noLine {call failure d₁ d₂ d'} : DeviceCall.checked name width height = .ok call →
      d.contains (fragmentPath l.deviceDir name) = false →
      d.makeDirs l.deviceDir = (.ok (), d₁) →
      d₁.write (fragmentPath l.deviceDir name) (fragmentStub name).encode = .ok d₂ →
      Puts l.source (· ++ call.line.encode) d₂ (.error failure) d' →
      Registers l name width height d (.error failure) d'
  | done {call d₁ d₂ d'} : DeviceCall.checked name width height = .ok call →
      d.contains (fragmentPath l.deviceDir name) = false →
      d.makeDirs l.deviceDir = (.ok (), d₁) →
      d₁.write (fragmentPath l.deviceDir name) (fragmentStub name).encode = .ok d₂ →
      Puts l.source (· ++ call.line.encode) d₂ (.ok ()) d' →
      Registers l name width height d
        (.ok ⟨fragmentPath l.deviceDir name, l.source, call.render⟩) d'

theorem Layout.registers {l : Layout} {name width height : Text}
    {result : Except Failure Registration}
    (h : (l.register name width height).Ends d result d') :
    l.Registers name width height d result d' := by
  unfold Layout.register at h
  cases hcall : DeviceCall.checked name width height with
  | error failure =>
    rw [hcall] at h
    change .error failure = result ∧ d = d' at h
    obtain ⟨rfl, rfl⟩ := h
    exact .invalid hcall
  | ok call =>
    obtain ⟨-, rfl, -, -⟩ := DeviceCall.checked_eq_ok_iff.1 hcall
    rw [hcall] at h
    replace h := Job.Ends.bind_of_looks h ⟨rfl, rfl⟩
    replace h := Job.Ends.bind_of_looks h ⟨rfl, rfl⟩
    cases hfree : d.contains (fragmentPath l.deviceDir call.name) with
    | true =>
      rw [hfree] at h
      change .error (.fragmentExists (fragmentPath l.deviceDir call.name)) = result ∧ d = d' at h
      obtain ⟨rfl, rfl⟩ := h
      exact .taken hcall hfree
    | false =>
      rw [hfree] at h
      rcases h.bind_makeDirs with ⟨fault, hmade, rfl⟩ | ⟨d₁, hmade, h⟩
      · exact .noDirectory hcall hfree hmade
      · rcases h.bind_write with ⟨fault, hwrite, rfl, rfl⟩ | ⟨d₂, hwrite, h⟩
        · exact .noFragment hcall hfree hmade hwrite
        · replace h := h.bind_of_looks (Job.Looks.note _)
          rcases h.bind with ⟨failure, hputs, rfl⟩ | ⟨_, d₃, hputs, h⟩
          · exact .noLine hcall hfree hmade hwrite (puts_appendLine hputs)
          · change .ok ⟨fragmentPath l.deviceDir call.name, l.source, call.render⟩ = result ∧
              d₃ = d' at h
            obtain ⟨rfl, rfl⟩ := h
            exact .done hcall hfree hmade hwrite (puts_appendLine hputs)

end DeviceSheet
