import DeviceSheet.Action
import DeviceSheet.Failure

/-!
# Jobs

A *job* is an action that may end in a failure.  A job that fails has still made the requests
before the failure.  `Job.run_bind` is the rule for two jobs in a row.
-/

namespace DeviceSheet

/-- An action that gives a value or fails. -/
abbrev Job := ExceptT Failure Action

/-- A request as a step of a larger program.  Its fault becomes a failure. -/
def attempt {m : Type → Type} [Monad m] [MonadLiftT Action m] {α : Type}
    (failure : Fault → Failure) (a : Action (Except Fault α)) : ExceptT Failure m α :=
  ExceptT.mk do return (← liftM a).mapError failure

/-- Runs a job on a disk. -/
def Job.run {α : Type} (job : Job α) (d : Disk) : Outcome (Except Failure α) :=
  Action.run (ExceptT.run job) d

namespace Job

variable {α β : Type}

@[simp] theorem run_pure (value : α) (d : Disk) :
    Job.run (pure value) d = ⟨.ok value, d, []⟩ := rfl

@[simp] theorem run_throw (failure : Failure) (d : Disk) :
    Job.run (throw failure : Job α) d = ⟨.error failure, d, []⟩ := rfl

/-- The second of two jobs runs on the disk that the first leaves, unless the first fails. -/
theorem run_bind (job : Job α) (f : α → Job β) (d : Disk) :
    Job.run (job >>= f) d =
      match (job.run d).value with
      | .ok value =>
          { Job.run (f value) (job.run d).disk with
            requests := (job.run d).requests ++ (Job.run (f value) (job.run d).disk).requests }
      | .error failure => ⟨.error failure, (job.run d).disk, (job.run d).requests⟩ := by
  change Action.run (ExceptT.run job >>= ExceptT.bindCont f) d = _
  rw [Action.run_bind]
  cases h : (job.run d).value with
  | ok value =>
    rw [show (Action.run (ExceptT.run job) d).value = .ok value from h]
    rfl
  | error failure =>
    rw [show (Action.run (ExceptT.run job) d).value = .error failure from h]
    simp [ExceptT.bindCont, Job.run]

end Job

end DeviceSheet
