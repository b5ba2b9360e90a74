import DeviceSheet.Disk.Access
import DeviceSheet.Event

/-!
# Actions

An *action* is a program that asks for things one after the other and ends with a
value.  Each *request* has its own type of answer.  The same action can be
run on a `Disk`, which is a pure function, or against a real file system.

`Action.run` runs an action on a disk.  The outcome has the value, the disk after
the last request and the requests in order, so what an action read or wrote can be told
from its outcome.  The laws `run_pure`, `run_bind` and `run_request` are all that is
needed to reason about a run.
-/

namespace DeviceSheet

/-- Something an action asks for. -/
inductive Request where
  /-- The text of a file. -/
  | read (path : Path)
  /-- The place of a file. -/
  | locate (path : Path)
  /-- Whether something is there. -/
  | contains (path : Path)
  /-- A directory, with those around it that are missing. -/
  | makeDirs (path : Path)
  /-- A file with the given contents. -/
  | write (path : Path) (text : Text)
  /-- More contents for a file. -/
  | append (path : Path) (text : Text)
  /-- That an event is noted. -/
  | note (event : Event)
deriving DecidableEq

/-- The type of answers to a request. -/
def Request.Answer : Request → Type
  | .read _ => Except Fault Text
  | .locate _ => Option Place
  | .contains _ => Bool
  | .makeDirs _ | .write .. | .append .. => Except Fault Unit
  | .note _ => Unit

/-- The event of a request, if it is a note. -/
def Request.event? : Request → Option Event
  | .note event => some event
  | _ => none

/-- A program that makes requests and ends with a value. -/
inductive Action (α : Type) where
  /-- The end. -/
  | done (value : α)
  /-- A request, and how to go on with its answer. -/
  | ask (request : Request) (next : request.Answer → Action α)

namespace Action

/-- One action after another. -/
def bind {α β : Type} : Action α → (α → Action β) → Action β
  | .done value, f => f value
  | .ask request next, f => .ask request fun answer => (next answer).bind f

instance : Monad Action where
  pure := .done
  bind := Action.bind

theorem bind_done {α : Type} (a : Action α) : a.bind .done = a := by
  induction a with
  | done value => rfl
  | ask request next ih => simp only [Action.bind, ih]

theorem bind_assoc {α β γ : Type} (a : Action α) (f : α → Action β) (g : β → Action γ) :
    (a.bind f).bind g = a.bind fun value => (f value).bind g := by
  induction a with
  | done value => rfl
  | ask request next ih => simp only [Action.bind, ih]

instance : LawfulMonad Action :=
  LawfulMonad.mk' Action
    (fun a => bind_done a)
    (fun _ _ => rfl)
    (fun a f g => bind_assoc a f g)

/-- A single request. -/
def request (r : Request) : Action r.Answer := .ask r .done

/-- Reads a file. -/
def read (path : Path) : Action (Except Fault Text) := request (.read path)

/-- Finds out what tells a file from others. -/
def identify (path : Path) : Action Identity := do
  match ← (request (.locate path) : Action (Option Place)) with
  | some place => return .at place
  | none => return .along path

/-- Finds out whether something is there. -/
def contains (path : Path) : Action Bool := request (.contains path)

/-- Makes a directory and those around it that are missing. -/
def makeDirs (path : Path) : Action (Except Fault Unit) := request (.makeDirs path)

/-- Writes a file. -/
def write (path : Path) (text : Text) : Action (Except Fault Unit) := request (.write path text)

/-- Makes a file longer. -/
def append (path : Path) (text : Text) : Action (Except Fault Unit) :=
  request (.append path text)

/-- Notes an event. -/
def note (event : Event) : Action Unit := request (.note event)

end Action

/-! ## Running on a disk -/

/-- The answer to a change of the disk, and the disk after it.  A fault leaves the disk as it
was, since all faults of a disk come up before the file is opened.  A write that breaks off later
and leaves a part of its text behind is not modelled. -/
def Disk.settle (d : Disk) : Except Fault Disk → Except Fault Unit × Disk
  | .ok d' => (.ok (), d')
  | .error fault => (.error fault, d)

/-- The answer of a disk to a request, and the disk after it. -/
def Disk.serve (d : Disk) : (request : Request) → request.Answer × Disk
  | .read path => (d.read path, d)
  | .locate path => (d.place? path, d)
  | .contains path => (d.contains path, d)
  | .makeDirs path => d.makeDirs path
  | .write path text => d.settle (d.write path text.encode)
  | .append path text => d.settle (d.append path text.encode)
  | .note _ => ((), d)

/-- What a run of an action comes to. -/
structure Outcome (α : Type) where
  /-- The value of the action. -/
  value : α
  /-- The disk afterwards. -/
  disk : Disk
  /-- The requests made, in order. -/
  requests : List Request

/-- The events noted during a run, in order. -/
def Outcome.events {α : Type} (o : Outcome α) : List Event := o.requests.filterMap Request.event?

namespace Action

/-- Runs an action on a disk. -/
def run {α : Type} : Action α → Disk → Outcome α
  | .done value, d => ⟨value, d, []⟩
  | .ask request next, d =>
      let (answer, d') := d.serve request
      let rest := (next answer).run d'
      { rest with requests := request :: rest.requests }

variable {α β : Type}

@[simp] theorem run_pure (value : α) (d : Disk) :
    (pure value : Action α).run d = ⟨value, d, []⟩ := rfl

@[simp] theorem run_request (r : Request) (d : Disk) :
    (request r).run d = ⟨(d.serve r).1, (d.serve r).2, [r]⟩ := rfl

/-- A sequence runs its second part on the disk that the first part leaves. -/
theorem run_bind (a : Action α) (f : α → Action β) (d : Disk) :
    (a >>= f).run d =
      { (f (a.run d).value).run (a.run d).disk with
        requests := (a.run d).requests ++ ((f (a.run d).value).run (a.run d).disk).requests } := by
  induction a generalizing d with
  | done value => rfl
  | ask request next ih =>
    change (Action.ask request fun answer => (next answer).bind f).run d = _
    have h := ih (d.serve request).1 (d.serve request).2
    change ((next (d.serve request).1).bind f).run (d.serve request).2 = _ at h
    simp only [run, h, List.cons_append]

end Action

end DeviceSheet
