import Mathlib.Data.List.Forall2
import DeviceSheet.Job

/-!
# Jobs that only look

A job *looks* at a disk if it ends with a result and leaves the disk as it is.  Such
a job is as good as its result.  Two jobs in a row are the two results in a row
(`Job.Looks.bind`), and a job for every member of a list is a result for every member
(`Job.Looks.mapM`).
-/

namespace DeviceSheet

namespace Job

variable {α β : Type} {d : Disk}

/-- On this disk the job has the given result and changes nothing. -/
def Looks (job : Job α) (d : Disk) (result : Except Failure α) : Prop :=
  (job.run d).value = result ∧ (job.run d).disk = d

theorem Looks.pure (value : α) : Looks (pure value) d (.ok value) := ⟨rfl, rfl⟩

theorem Looks.note (event : Event) : Looks (Action.note event : Job Unit) d (.ok ()) := ⟨rfl, rfl⟩

/-- A file is read, or the fault becomes a failure. -/
theorem Looks.read (failure : Fault → Failure) (path : Path) :
    Looks (attempt failure (Action.read path)) d ((d.read path).mapError failure) := ⟨rfl, rfl⟩

/-- Two jobs in a row. -/
theorem Looks.bind {job : Job α} {f : α → Job β} {result : Except Failure α}
    {g : α → Except Failure β} (h : job.Looks d result)
    (hf : ∀ value, Looks (f value) d (g value)) :
    Looks (job >>= f) d (result >>= g) := by
  obtain ⟨hvalue, hdisk⟩ := h
  rw [Looks, run_bind, hvalue]
  cases result with
  | error failure => exact ⟨rfl, hdisk⟩
  | ok value =>
    rw [hdisk]
    exact hf value

/-- A job for every member of a list. -/
theorem Looks.mapM {f : α → Job β} {g : α → Except Failure β}
    (h : ∀ value, Looks (f value) d (g value)) (values : List α) :
    Looks (values.mapM f) d (values.mapM g) := by
  induction values with
  | nil => exact Looks.pure []
  | cons value values ih =>
    rw [List.mapM_cons, List.mapM_cons]
    exact (h value).bind fun b => ih.bind fun bs => Looks.pure (b :: bs)

end Job

/-- A result is no other for a change in the failures. -/
theorem eq_ok_of_mapError_eq_ok {ε ε' α : Type} {f : ε → ε'} {r : Except ε α} {value : α}
    (h : r.mapError f = .ok value) : r = .ok value := by
  cases r with
  | error e => cases h
  | ok value' => simpa [Except.mapError] using h

theorem exists_ok_of_map_eq_ok {ε α β : Type} {f : α → β} {r : Except ε α} {result : β}
    (h : r.map f = .ok result) : ∃ value, r = .ok value ∧ f value = result := by
  cases r with
  | error e => cases h
  | ok value => exact ⟨value, rfl, Except.ok.inj h⟩

/-! ## Results for every member of a list -/

section

variable {α β ε : Type} {f : α → Except ε β}

/-- All members of a list have results. -/
theorem mapM_eq_ok_iff {values : List α} {results : List β} :
    values.mapM f = .ok results ↔
      List.Forall₂ (fun value result => f value = .ok result) values results := by
  induction values generalizing results with
  | nil =>
    rw [List.mapM_nil, List.forall₂_nil_left_iff]
    exact ⟨fun h => (Except.ok.inj h).symm, fun h => congrArg Except.ok h.symm⟩
  | cons value values ih =>
    rw [List.mapM_cons, List.forall₂_cons_left_iff]
    constructor
    · intro h
      cases hvalue : f value with
      | error e =>
        rw [hvalue] at h
        cases h
      | ok result =>
        cases hvalues : values.mapM f with
        | error e =>
          rw [hvalue, hvalues] at h
          cases h
        | ok rest =>
          rw [hvalue, hvalues] at h
          cases h
          exact ⟨result, rest, rfl, ih.1 hvalues, rfl⟩
    · rintro ⟨result, rest, hvalue, hvalues, rfl⟩
      rw [hvalue, ih.2 hvalues]
      rfl

/-- If all members of a list have results, each has one. -/
theorem exists_ok_of_mapM_eq_ok {values : List α} {results : List β}
    (h : values.mapM f = .ok results) {value : α} (hvalue : value ∈ values) :
    ∃ result, f value = .ok result := by
  have hall := mapM_eq_ok_iff.1 h
  clear h
  induction hall with
  | nil => cases hvalue
  | cons hfirst _ ih =>
    rcases List.mem_cons.1 hvalue with rfl | hvalue
    · exact ⟨_, hfirst⟩
    · exact ih hvalue

/-- A failure is the failure of the first member that has no result. -/
theorem mapM_eq_error {values : List α} {e : ε} (h : values.mapM f = .error e) :
    ∃ before value after, values = before ++ value :: after ∧
      (∀ v ∈ before, ∃ result, f v = .ok result) ∧ f value = .error e := by
  induction values with
  | nil => cases h
  | cons value values ih =>
    rw [List.mapM_cons] at h
    cases hvalue : f value with
    | error e' =>
      rw [hvalue] at h
      cases h
      exact ⟨[], value, values, rfl, by simp, hvalue⟩
    | ok result =>
      cases hvalues : values.mapM f with
      | ok rest =>
        rw [hvalue, hvalues] at h
        cases h
      | error e' =>
        rw [hvalue, hvalues] at h
        cases h
        obtain ⟨before, v, after, rfl, hbefore, hv⟩ := ih hvalues
        refine ⟨value :: before, v, after, rfl, ?_, hv⟩
        intro w hw
        rcases List.mem_cons.1 hw with rfl | hw
        · exact ⟨result, hvalue⟩
        · exact hbefore w hw

/-- If every member of a list fails alike under two functions or has related results, so does the
list. -/
theorem mapM_alike {g : α → Except ε β} {R : β → β → Prop} {values : List α}
    (h : ∀ value ∈ values, (∃ e, f value = .error e ∧ g value = .error e) ∨
      ∃ b b', f value = .ok b ∧ g value = .ok b' ∧ R b b') :
    (∃ e, values.mapM f = .error e ∧ values.mapM g = .error e) ∨
      ∃ bs bs', values.mapM f = .ok bs ∧ values.mapM g = .ok bs' ∧ List.Forall₂ R bs bs' := by
  induction values with
  | nil => exact .inr ⟨[], [], rfl, rfl, .nil⟩
  | cons value values ih =>
    rw [List.forall_mem_cons] at h
    rw [List.mapM_cons, List.mapM_cons]
    rcases h.1 with ⟨e, hf, hg⟩ | ⟨b, b', hf, hg, hb⟩
    · rw [hf, hg]
      exact .inl ⟨e, rfl, rfl⟩
    · rw [hf, hg]
      rcases ih h.2 with ⟨e, hfs, hgs⟩ | ⟨bs, bs', hfs, hgs, hbs⟩
      · rw [hfs, hgs]
        exact .inl ⟨e, rfl, rfl⟩
      · rw [hfs, hgs]
        exact .inr ⟨b :: bs, b' :: bs', rfl, rfl, .cons hb hbs⟩

end

end DeviceSheet
