import DeviceSheet.Project
import DeviceSheet.Proofs.FileIdentity
import DeviceSheet.Proofs.Reading

/-!
# What a run depends on

An action knows of a disk what it has asked for.  Two disks that give the same answers to the
requests of a run cannot be told apart by it (`Action.run_of_answers`).  So it is enough to know
what compiling asks for.

* Expanding a source and compiling a project make no request that changes a disk.
* If they succeed, then every file they asked for could be read.  A file is located after it was
  read, and the first file that cannot be read ends the run.

`Consults` says both of a run.  It goes along the program, one rule for each construct, first for
expansions and then for jobs.
-/

namespace DeviceSheet

variable {d d' : Disk}

/-! ## Requests -/

namespace Request

/-- Does the request leave the disk as it is? -/
def isLook : Request → Bool
  | .read _ | .locate _ | .contains _ | .note _ => true
  | .makeDirs _ | .write .. | .append .. => false

theorem disk_serve {r : Request} (h : r.isLook = true) (d : Disk) : (d.serve r).2 = d := by
  cases r with
  | read | locate | contains | note => rfl
  | makeDirs | write | append => cases h

/-- The file that is asked for can be read. -/
def Found (d : Disk) : Request → Prop
  | .read path | .locate path => ∃ t, d.read path = .ok t
  | .note _ => True
  | _ => False

end Request

namespace Action

variable {α β : Type}

theorem run_ask (r : Request) (next : r.Answer → Action α) (d : Disk) :
    (ask r next).run d =
      { (next (d.serve r).1).run (d.serve r).2 with
        requests := r :: ((next (d.serve r).1).run (d.serve r).2).requests } := rfl

/-- A run that only looks goes the same way on a disk that gives the same answers. -/
theorem run_of_answers {a : Action α}
    (h : ∀ r ∈ (a.run d).requests, r.isLook = true ∧ (d'.serve r).1 = (d.serve r).1) :
    a.run d' = ⟨(a.run d).value, d', (a.run d).requests⟩ := by
  induction a with
  | done value => rfl
  | ask r next ih =>
    obtain ⟨hlook, hanswer⟩ := h r List.mem_cons_self
    rw [run_ask, Request.disk_serve hlook] at h
    have hrest := ih _ fun s hs => h s (List.mem_cons_of_mem r hs)
    rw [run_ask, run_ask, Request.disk_serve hlook, Request.disk_serve hlook, hanswer, hrest]

theorem disk_run {a : Action α} (h : ∀ r ∈ (a.run d).requests, r.isLook = true) :
    (a.run d).disk = d := by
  rw [run_of_answers fun r hr => ⟨h r hr, rfl⟩]

/-! ## Runs that consult a disk -/

/-- The run only looks.  If it succeeds, all files that it asks for can be read. -/
def Consults (a : Action α) (d : Disk) (Succeeds : α → Prop) : Prop :=
  ∀ r ∈ (a.run d).requests, r.isLook = true ∧ (Succeeds (a.run d).value → r.Found d)

variable {Succeeds : α → Prop} {Succeeds' : β → Prop}

theorem Consults.disk {a : Action α} (h : a.Consults d Succeeds) : (a.run d).disk = d :=
  disk_run fun r hr => (h r hr).1

theorem Consults.pure (value : α) : Consults (Pure.pure value) d Succeeds := by
  intro r hr
  cases hr

/-- Two actions in a row, which succeed only if the first does. -/
theorem Consults.bind {a : Action α} {f : α → Action β} (ha : a.Consults d Succeeds)
    (hf : (f (a.run d).value).Consults d Succeeds')
    (hfirst : Succeeds' ((f (a.run d).value).run d).value → Succeeds (a.run d).value) :
    (a >>= f).Consults d Succeeds' := by
  intro r hr
  rw [run_bind, ha.disk] at hr ⊢
  rcases List.mem_append.1 hr with hr | hr
  · exact ⟨(ha r hr).1, fun hdone => (ha r hr).2 (hfirst hdone)⟩
  · exact hf r hr

end Action

/-! ## Expansions -/

namespace Expander

variable {α β : Type}

/-- From every state the expansion only looks at the disk.  If it succeeds, all files that it asks
for can be read. -/
def Consults (e : Expansion α) (d : Disk) : Prop :=
  ∀ x : Expander, (x.run e).Consults d fun r => ∃ value, r.1 = .ok value

theorem Consults.pure (value : α) : Consults (Pure.pure value) d := fun _ => .pure _

theorem Consults.throw (failure : Failure) : Consults (throw failure : Expansion α) d :=
  fun _ => .pure _

theorem Consults.get : Consults get d := fun _ => .pure _

/-- The second of two expansions has to do with the values that the first can have. -/
theorem Consults.bind_of_value {e : Expansion α} {f : α → Expansion β} (he : Consults e d)
    (hf : ∀ (x : Expander) value, ((x.run e).run d).value.1 = .ok value → Consults (f value) d) :
    Consults (e >>= f) d := by
  intro x
  rw [run_bind]
  have hvalue := hf x
  refine (he x).bind ?_ ?_ <;> generalize ((x.run e).run d).value = r at hvalue ⊢
  · obtain ⟨failure | value, x'⟩ := r
    · exact .pure _
    · exact hvalue value rfl x'
  · obtain ⟨failure | value, x'⟩ := r
    · rintro ⟨value, hvalue⟩
      cases hvalue
    · exact fun _ => ⟨value, rfl⟩

theorem Consults.bind {e : Expansion α} {f : α → Expansion β} (he : Consults e d)
    (hf : ∀ value, Consults (f value) d) : Consults (e >>= f) d :=
  he.bind_of_value fun _ value _ => hf value

/-- A request whose answer is no failure. -/
theorem Consults.lift {a : Action α} (h : a.Consults d fun _ => True) :
    Consults (a : Expansion α) d := by
  intro x
  have hrun : x.run (a : Expansion α) = a >>= fun value => Pure.pure (.ok value, x) :=
    run_lift_of_state x a
  rw [hrun]
  exact h.bind (.pure _) fun _ => trivial

theorem Consults.note (event : Event) : Consults (Action.note event : Expansion Unit) d := by
  refine .lift fun r hr => ?_
  cases List.mem_singleton.1 hr
  exact ⟨rfl, fun _ => trivial⟩

/-- A file that can be read is located. -/
theorem Consults.identify {path : Path} {t : Text} (h : d.read path = .ok t) :
    Consults (Action.identify path : Expansion Identity) d := by
  refine .lift fun r hr => ?_
  rw [Disk.run_identify] at hr
  cases List.mem_singleton.1 hr
  exact ⟨rfl, fun _ => ⟨t, h⟩⟩

/-- A file is read first. -/
theorem Consults.bind_read {failure : Fault → Failure} {path : Path} {f : Text → Expansion β}
    (hf : ∀ t, d.read path = .ok t → Consults (f t) d) :
    Consults (attempt failure (Action.read path) >>= f) d := by
  refine Consults.bind_of_value (fun x r hr => ?_) fun x t ht => ?_
  · cases List.mem_singleton.1 hr
    exact ⟨rfl, fun ⟨t, ht⟩ => ⟨t, eq_ok_of_mapError_eq_ok ht⟩⟩
  · exact hf t (eq_ok_of_mapError_eq_ok ht)

theorem Consults.holding {e : Expansion α} {file : Identity} (h : Consults e d) :
    Consults (holding file e) d := by
  intro x
  rw [run_holding]
  exact (h _).bind (.pure _) id

theorem Consults.deeper {e : Expansion α} (h : Consults e d) : Consults (deeper e) d := by
  intro x
  rw [run_deeper]
  exact (h _).bind (.pure _) id

theorem Consults.mapM {f : α → Expansion β} (h : ∀ value, Consults (f value) d)
    (values : List α) : Consults (values.mapM f) d := by
  induction values with
  | nil => exact .pure []
  | cons value values ih =>
    rw [List.mapM_cons]
    exact (h value).bind fun b => ih.bind fun bs => .pure (b :: bs)

/-! ## Import expansion -/

theorem consults_refuse (target : Text) : Consults (refuse target) d :=
  Consults.get.bind fun _ => .throw _

theorem consults_importWith {expand : Text → Expansion Text} (h : ∀ t, Consults (expand t) d)
    (target : Text) : Consults (importWith expand target) d := by
  refine Consults.get.bind fun x => ?_
  split
  · exact consults_refuse target
  · refine .bind_read fun t hread => (Consults.identify hread).bind fun file => ?_
    split
    · exact (Consults.throw _).bind fun _ =>
        (Consults.note _).bind fun _ => (Consults.note _).bind fun _ => (h t).deeper.holding
    · exact (Consults.note _).bind fun _ => (Consults.note _).bind fun _ => (h t).deeper.holding

theorem consults_expandWith {importFile : Text → Expansion Text}
    (h : ∀ target, Consults (importFile target) d) (t : Text) :
    Consults (expandWith importFile t) d := by
  have hspell : ∀ token, Consults (spell importFile token) d := by
    intro token
    cases token with
    | directive _ target => exact h target
    | literal | device => exact .pure _
  rw [expandWith, map_eq_pure_bind]
  exact (Consults.mapM hspell _).bind fun _ => .pure _

theorem consults_expand (room : Nat) (t : Text) : Consults (expand room t) d := by
  induction room generalizing t with
  | zero => exact consults_expandWith consults_refuse t
  | succ room ih => exact consults_expandWith (consults_importWith ih) t

theorem consults_resolveFile (path : Path) : Consults (resolveFile path) d := by
  refine .bind_read fun t hread => (Consults.identify hread).bind fun file => ?_
  exact Consults.holding (Consults.get.bind fun x => consults_expand _ t)

end Expander

/-! ## Jobs -/

namespace Job

variable {α β : Type}

/-- The job only looks at the disk.  If it succeeds, all files that it asks for can be read. -/
def Consults (job : Job α) (d : Disk) : Prop :=
  Action.Consults (ExceptT.run job) d fun r => ∃ value, r = .ok value

theorem Consults.pure (value : α) : Consults (Pure.pure value) d := Action.Consults.pure _

theorem Consults.bind {job : Job α} {f : α → Job β} (hjob : job.Consults d)
    (hf : ∀ value, (f value).Consults d) : Consults (job >>= f) d := by
  change Action.Consults (ExceptT.run job >>= ExceptT.bindCont f) d _
  refine Action.Consults.bind hjob ?_ ?_ <;> generalize (Action.run (ExceptT.run job) d).value = r
  · cases r with
    | ok value => exact hf value
    | error failure => exact .pure _
  · cases r with
    | ok value => exact fun _ => ⟨value, rfl⟩
    | error failure =>
      rintro ⟨value, hvalue⟩
      cases hvalue

theorem Consults.note (event : Event) : Consults (Action.note event : Job Unit) d := by
  intro r hr
  cases List.mem_singleton.1 hr
  exact ⟨rfl, fun _ => trivial⟩

theorem Consults.mapM {f : α → Job β} (h : ∀ value, (f value).Consults d) (values : List α) :
    Consults (values.mapM f) d := by
  induction values with
  | nil => exact .pure []
  | cons value values ih =>
    rw [List.mapM_cons]
    exact (h value).bind fun b => ih.bind fun bs => .pure (b :: bs)

theorem Consults.read (failure : Fault → Failure) (path : Path) :
    Consults (attempt failure (Action.read path)) d := by
  intro r hr
  cases List.mem_singleton.1 hr
  exact ⟨rfl, fun ⟨t, ht⟩ => ⟨t, eq_ok_of_mapError_eq_ok ht⟩⟩

theorem Consults.ofExpansion {e : Expansion α} (x : Expander) (h : Expander.Consults e d) :
    (x.job e).Consults d := by
  change Action.Consults (Prod.fst <$> x.run e) d _
  rw [map_eq_pure_bind]
  exact (h x).bind (.pure _) id

end Job

theorem consults_extract (sheet : Text) (deviceDir : Path) :
    (extract sheet deviceDir).Consults d := by
  have hload : ∀ call : DeviceCall, (call.load deviceDir).Consults d := fun call =>
    (Job.Consults.read _ _).bind fun _ => (Job.Consults.note _).bind fun _ => .pure _
  exact (Job.Consults.mapM hload _).bind fun _ => .pure _

namespace Layout

theorem consults_resolveSource (l : Layout) : l.resolveSource.Consults d :=
  (Job.Consults.note _).bind fun _ => .ofExpansion l.expander (Expander.consults_resolveFile _)

/-- Compiling only looks.  If it succeeds, then all files that it asked for can be read. -/
theorem consults_compile (l : Layout) : l.compile.Consults d :=
  l.consults_resolveSource.bind fun sheet => (consults_extract sheet l.deviceDir).bind fun _ =>
    (Job.Consults.note _).bind fun _ => .pure _

end Layout

end DeviceSheet
