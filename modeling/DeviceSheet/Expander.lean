import DeviceSheet.Job
import DeviceSheet.Layout
import DeviceSheet.Token.Scan

/-!
# Import expansion

An *expander* puts the text of imported files in place of the directives that ask
for them.  The imported text is expanded in the same way.  All paths are taken from one base
directory, also in files that lie elsewhere.

The expander keeps the *chain* of files that are being expanded and the *depth* of
imports that are open.  An import fails, in this order, if

* the depth has reached the limit,
* the file cannot be read,
* the file is on the chain already, under any spelling of its path.

A file that is expanded from the top counts for the chain and not for the depth.

Each import leaves the chain and the depth as they were, whether it fails or not.

The recursion is structural in the *room*, which is what is left below the limit at the
start.  The limit itself is enforced by the depth, which every import checks.  The room only
has to be enough for the recursion to get there, and more room changes nothing.

The steps are written for every monad that holds the state of an expander and makes
requests.  `Expansion` is the plain one.
-/

namespace DeviceSheet

/-- The state of import expansion. -/
structure Expander where
  /-- The directory that all import paths are taken from. -/
  base : Path
  /-- The greatest depth. -/
  limit : UInt64 := defaultMaxImportDepth
  /-- The number of open imports. -/
  depth : UInt64 := 0
  /-- The files that are being expanded, outermost first. -/
  chain : List Identity := []
deriving DecidableEq

/-- A plain step of import expansion.  The state of the expander outlives a failure. -/
abbrev Expansion := ExceptT Failure (StateT Expander Action)

namespace Expander

section

variable {m : Type → Type} [Monad m] [MonadStateOf Expander m] [MonadLiftT Action m]

/-- The failure of an import that lies too deep. -/
def refuse (target : Text) : ExceptT Failure m Text := do
  let x ← get
  throw (.importTooDeep (x.base.join ⟨target⟩) x.limit)

/-- Runs an expansion with a file put on the chain, and takes the file off again. -/
def holding {α : Type} (file : Identity) (inner : ExceptT Failure m α) : ExceptT Failure m α :=
  ExceptT.mk do
    modify fun x => { x with chain := x.chain ++ [file] }
    let result ← inner.run
    modify fun x => { x with chain := x.chain.dropLast }
    return result

/-- Runs an expansion one level deeper. -/
def deeper {α : Type} (inner : ExceptT Failure m α) : ExceptT Failure m α :=
  ExceptT.mk do
    modify fun x => { x with depth := x.depth + 1 }
    let result ← inner.run
    modify fun x => { x with depth := x.depth - 1 }
    return result

/-- The expansion of the file a directive asks for, given the expansion of texts. -/
def importWith (expand : Text → ExceptT Failure m Text) (target : Text) :
    ExceptT Failure m Text := do
  let x ← get
  if x.limit ≤ x.depth then
    refuse target
  else
    let path := x.base.join ⟨target⟩
    let text ← attempt (.importUnreadable path) (Action.read path)
    let file ← Action.identify path
    if x.chain.any file.same then
      throw (.importCycle path)
    Action.note (.importing path)
    Action.note (.importChain x.chain)
    holding file (deeper (expand text))

/-- The text a token stands for, given the expansion of directives. -/
def spell (importFile : Text → ExceptT Failure m Text) : Token → ExceptT Failure m Text
  | .directive _ target => importFile target
  | token => return token.lexeme

/-- The expansion of a text, given the expansion of directives. -/
def expandWith (importFile : Text → ExceptT Failure m Text) (text : Text) :
    ExceptT Failure m Text :=
  List.flatten <$> (scan text).mapM (spell importFile)

/-- The expansion of a text below which the given number of levels may open.  With enough room the
depth reaches the limit no later than the room runs out, so a directive without room is one that
its own check would refuse too. -/
def expand : (room : Nat) → Text → ExceptT Failure m Text
  | 0 => expandWith refuse
  | room + 1 => expandWith (importWith (expand room))

/-- Expands all imports of a text. -/
def resolve (text : Text) : ExceptT Failure m Text := do
  let x ← get
  expand (x.limit.toNat - x.depth.toNat) text

/-- Reads a file and expands all its imports. -/
def resolveFile (path : Path) : ExceptT Failure m Text := do
  let text ← attempt (.sourceUnreadable path) (Action.read path)
  let file ← Action.identify path
  holding file (resolve text)

end

/-- Runs an expansion from a given state, giving the result and the state after it. -/
def run {α : Type} (x : Expander) (e : Expansion α) : Action (Except Failure α × Expander) :=
  StateT.run (ExceptT.run e) x

/-- Runs an expansion from a given state as a job. -/
def job {α : Type} (x : Expander) (e : Expansion α) : Job α :=
  ExceptT.mk (Prod.fst <$> x.run e)

/-! ## Rules for running -/

variable {α β : Type}

@[simp] theorem run_pure (x : Expander) (value : α) :
    x.run (pure value) = pure (.ok value, x) := rfl

@[simp] theorem run_throw (x : Expander) (failure : Failure) :
    x.run (throw failure : Expansion α) = pure (.error failure, x) := rfl

@[simp] theorem run_get (x : Expander) : x.run get = pure (.ok x, x) := rfl

/-- The second of two steps with a state starts from the state that the first leaves, unless the
first fails. -/
theorem run_bind_of_state {σ : Type} (s : σ) (e : ExceptT Failure (StateT σ Action) α)
    (f : α → ExceptT Failure (StateT σ Action) β) :
    (e >>= f).run.run s = e.run.run s >>= fun r =>
      match r.1 with
      | .ok value => (f value).run.run r.2
      | .error failure => pure (.error failure, r.2) := by
  simp only [bind, ExceptT.bind, ExceptT.run, ExceptT.mk, StateT.run, StateT.bind]
  congr 1
  funext r
  obtain ⟨result, s'⟩ := r
  cases result <;> rfl

/-- A request leaves the state alone. -/
theorem run_lift_of_state {σ : Type} (s : σ) (a : Action α) :
    (a : ExceptT Failure (StateT σ Action) α).run.run s =
      a >>= fun value => pure (.ok value, s) := by
  show (a >>= fun value => pure (value, s)) >>= (fun r => pure (Except.ok r.1, r.2)) = _
  rw [bind_assoc]
  rfl

/-- The second of two expansions starts from the state that the first leaves, unless the first
fails. -/
theorem run_bind (x : Expander) (e : Expansion α) (f : α → Expansion β) :
    x.run (e >>= f) = x.run e >>= fun r =>
      match r.1 with
      | .ok value => r.2.run (f value)
      | .error failure => pure (.error failure, r.2) :=
  run_bind_of_state x e f

/-- A held file is taken off the chain also after a failure. -/
theorem run_holding (x : Expander) (file : Identity) (e : Expansion α) :
    x.run (holding file e) = run { x with chain := x.chain ++ [file] } e >>= fun r =>
      pure (r.1, { r.2 with chain := r.2.chain.dropLast }) := rfl

/-- The depth is lowered again also after a failure. -/
theorem run_deeper (x : Expander) (e : Expansion α) :
    x.run (deeper e) = run { x with depth := x.depth + 1 } e >>= fun r =>
      pure (r.1, { r.2 with depth := r.2.depth - 1 }) := rfl

end Expander

end DeviceSheet
