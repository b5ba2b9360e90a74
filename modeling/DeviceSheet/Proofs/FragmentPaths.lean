import DeviceSheet.Proofs.NewDirectories
import DeviceSheet.Proofs.PathComponents

/-!
# Fragments stay in their directory

A name from a source, or from the command line, becomes a part of a path.  With a slash or two dots
in it, the path could lead anywhere.  The names that are accepted have neither, so the fragments are
in the directory that was given for them, however it is spelled (`fragments_stay_in_directory`).

* `Action.Asks` says of a program what it asks for at most, whatever the answers are.  It goes along
  the program, one rule for each construct.
* The components of a fragment's path are those of the directory and the file name
  (`components_fragmentPath`).
-/

namespace DeviceSheet

/-! ## What a program asks for -/

section

variable {α β : Type} {P : Request → Prop}

namespace Action

/-- Whatever the answers are, all requests of the program are of the given kind. -/
def Asks (P : Request → Prop) : Action α → Prop
  | .done _ => True
  | .ask request next => P request ∧ ∀ answer, (next answer).Asks P

theorem Asks.mem_requests {a : Action α} (h : a.Asks P) (d : Disk) :
    ∀ r ∈ (a.run d).requests, P r := by
  induction a generalizing d with
  | done value => simp [run]
  | ask request next ih =>
    intro r hr
    rcases List.mem_cons.1 hr with rfl | hr
    · exact h.1
    · exact ih _ (h.2 _) _ r hr

theorem Asks.request {r : Request} (h : P r) : (request r).Asks P := ⟨h, fun _ => trivial⟩

theorem Asks.bind {a : Action α} {f : α → Action β} (ha : a.Asks P)
    (hf : ∀ value, (f value).Asks P) : (a >>= f).Asks P := by
  induction a with
  | done value => exact hf value
  | ask request next ih => exact ⟨ha.1, fun answer => ih answer (ha.2 answer)⟩

end Action

namespace Job

/-- Whatever the answers are, all requests of the job are of the given kind. -/
def Asks (P : Request → Prop) (job : Job α) : Prop := Action.Asks P (ExceptT.run job)

theorem Asks.pure (value : α) : Asks P (Pure.pure value) := trivial

theorem Asks.throw (failure : Failure) : Asks P (throw failure : Job α) := trivial

theorem Asks.bind {job : Job α} {f : α → Job β} (hjob : job.Asks P)
    (hf : ∀ value, (f value).Asks P) : Asks P (job >>= f) := by
  refine Action.Asks.bind hjob fun r => ?_
  cases r with
  | error failure => exact trivial
  | ok value => exact hf value

/-- A result that is known before the first request. -/
theorem Asks.bind_result {r : Except Failure α} {f : α → Job β}
    (hf : ∀ value, r = .ok value → (f value).Asks P) : Asks P (ExceptT.mk (Pure.pure r) >>= f) := by
  cases r with
  | error failure => exact trivial
  | ok value => exact hf value rfl

theorem Asks.lift {a : Action α} (h : a.Asks P) : Asks P (a : Job α) := by
  change Action.Asks P (Except.ok <$> a)
  rw [map_eq_pure_bind]
  exact h.bind fun _ => trivial

theorem Asks.attempt {a : Action (Except Fault α)} (failure : Fault → Failure) (h : a.Asks P) :
    Asks P (attempt failure a) :=
  Action.Asks.bind h fun _ => trivial

theorem Asks.mapM {f : α → Job β} {values : List α} (h : ∀ value ∈ values, (f value).Asks P) :
    Asks P (values.mapM f) := by
  induction values with
  | nil => exact .pure []
  | cons value values ih =>
    rw [List.forall_mem_cons] at h
    rw [List.mapM_cons]
    exact h.1.bind fun b => (ih h.2).bind fun bs => .pure (b :: bs)

end Job

end

/-! ## The path of a fragment -/

/-- The file name is the last component of the path, and what is around it is the directory. -/
structure Path.NamesFragment (p deviceDir : Path) (name : Text) : Prop where
  name_ne : name ≠ []
  name_over : name.Over isNameChar
  parent : ∃ parent, p.parent? = some parent ∧ parent.components = deviceDir.components
  last : p.components.getLast? = some (.name (name ++ ".dmcss".toList))

/-- The path of a fragment has the components of the directory, whatever its spelling is, and the
file name. -/
theorem components_fragmentPath {deviceDir : Path} {name : Text} (hname : isDeviceName name = true) :
    (fragmentPath deviceDir name).components =
      deviceDir.components ++ [.name (name ++ ".dmcss".toList)] :=
  Path.components_join_name (isName_fileName hname)

theorem namesFragment_fragmentPath {deviceDir : Path} {name : Text}
    (hname : isDeviceName name = true) :
    (fragmentPath deviceDir name).NamesFragment deviceDir name where
  name_ne := (isDeviceName_iff.1 hname).1
  name_over := (isDeviceName_iff.1 hname).2
  parent := Path.exists_parent? (components_fragmentPath hname) (by simp)
  last := by rw [components_fragmentPath hname, List.getLast?_concat]

/-! ## Fragments that are read -/

/-- Taking a sheet apart asks for the fragments of its calls, and for notes. -/
def Request.OfExtraction (sheet : Text) (deviceDir : Path) : Request → Prop
  | .read p => ∃ call ∈ calls sheet, p.NamesFragment deviceDir call.name
  | .note _ => True
  | _ => False

theorem asks_extract (sheet : Text) (deviceDir : Path) :
    (extract sheet deviceDir).Asks (Request.OfExtraction sheet deviceDir) := by
  refine (Job.Asks.mapM fun call hcall => ?_).bind fun _ => .pure _
  have hname := (valid_of_mem_calls hcall).isDeviceName
  refine (Job.Asks.attempt _ (.request ?_)).bind fun fragment => ?_
  · exact ⟨call, hcall, namesFragment_fragmentPath hname⟩
  · exact (Job.Asks.lift (.request trivial)).bind fun _ => .pure _

/-! ## Fragments that are written -/

/-- Registering a device asks whether its fragment is there, and to write it.  All other files are
the source and the directories around. -/
def Request.OfRegistration (l : Layout) (name : Text) : Request → Prop
  | .contains p | .write p _ => p.NamesFragment l.deviceDir name
  | .makeDirs p => p = l.deviceDir ∨ l.source.directory? = some p
  | .append p _ => p = l.source
  | .note _ => True
  | .read _ | .locate _ => False

theorem asks_appendLine (l : Layout) (name line : Text) :
    (appendLine l.source line).Asks (Request.OfRegistration l name) := by
  unfold appendLine
  split
  · next directory hdirectory =>
    exact (Job.Asks.attempt _ (.request (.inr hdirectory))).bind fun _ =>
      Job.Asks.attempt _ (.request rfl)
  · exact Job.Asks.attempt _ (.request rfl)

theorem asks_register (l : Layout) (name width height : Text) :
    (l.register name width height).Asks (Request.OfRegistration l name) := by
  refine Job.Asks.bind_result fun call hcall => ?_
  obtain ⟨hname, rfl, -, -⟩ := DeviceCall.checked_eq_ok_iff.1 hcall
  have hfragment : (fragmentPath l.deviceDir call.name).NamesFragment l.deviceDir call.name :=
    namesFragment_fragmentPath hname
  refine (Job.Asks.lift (.request hfragment)).bind fun there => ?_
  split
  · exact Job.Asks.throw (.fragmentExists _)
  · refine (Job.Asks.attempt _ (.request (.inl rfl))).bind fun _ => ?_
    refine (Job.Asks.attempt _ (.request hfragment)).bind fun _ => ?_
    refine (Job.Asks.lift (.request trivial)).bind fun _ => ?_
    refine (asks_appendLine l call.name _).bind fun _ => ?_
    exact (Job.Asks.lift (.request trivial)).bind fun _ => .pure _

/-! ## All fragments -/

/-- The fragments that are read for a sheet, looked for or written for a new device are in the
directory that was given for them, under the name of a device.  Devices with different names have
different fragments. -/
theorem fragments_stay_in_directory :
    (∀ sheet deviceDir d, ∀ r ∈ ((extract sheet deviceDir).run d).requests,
      r.OfExtraction sheet deviceDir) ∧
    (∀ (l : Layout) name width height d, ∀ r ∈ ((l.register name width height).run d).requests,
      r.OfRegistration l name) ∧
    ∀ deviceDir name other, isDeviceName name = true → isDeviceName other = true →
      (fragmentPath deviceDir name).same (fragmentPath deviceDir other) = true → name = other := by
  refine ⟨fun sheet deviceDir d => (asks_extract sheet deviceDir).mem_requests d,
    fun l name width height d => (asks_register l name width height).mem_requests d, ?_⟩
  intro deviceDir name other hname hother hsame
  have hcomponents := of_decide_eq_true hsame
  rw [components_fragmentPath hname, components_fragmentPath hother] at hcomponents
  have hfile := List.append_cancel_left hcomponents
  simp only [List.cons.injEq, Component.name.injEq, and_true] at hfile
  exact List.append_cancel_right hfile

/-- The directory is written with dots and two slashes in a row, and a call names a file outside. -/
theorem fragments_stay_in_directory_of_dots :
    let l : Layout := ⟨⟨"m".toList⟩, ⟨"./x//../.".toList⟩, ⟨[]⟩, ⟨[]⟩, 4⟩
    let d : Disk := ⟨[([['x']], .dir)], []⟩
    let sheet :=
      "$$device(name:\"../a\",width:1,height:1)$$device(name:\"a\",width:1,height:1)".toList
    let p : Path := ⟨"./x//.././a.dmcss".toList⟩
    (((extract sheet l.deviceDir).run d).requests = [.read p] ∧
      .write p (fragmentStub ['a']) ∈ ((l.register ['a'] ['1'] ['1']).run d).requests) ∧
    (Request.read p).OfExtraction sheet l.deviceDir ∧
    (Request.write p (fragmentStub ['a'])).OfRegistration l ['a'] ∧
    (fragmentPath l.deviceDir ['a']).same (fragmentPath l.deviceDir ['A']) = false := by
  intro l d sheet p
  have hruns : ((extract sheet l.deviceDir).run d).requests = [.read p] ∧
      .write p (fragmentStub ['a']) ∈ ((l.register ['a'] ['1'] ['1']).run d).requests := by
    decide +kernel
  obtain ⟨hextract, hregister, hnames⟩ := fragments_stay_in_directory
  refine ⟨hruns, hextract sheet l.deviceDir d _ (by simp [hruns.1]),
    hregister l ['a'] ['1'] ['1'] d _ hruns.2, Bool.eq_false_iff.2 fun hsame => ?_⟩
  exact absurd (hnames l.deviceDir ['a'] ['A'] rfl rfl hsame) (by decide)

end DeviceSheet
