import DeviceSheet.Proofs.Watching

/-!
# One expander for many calls

An expander has a state, and the same expander can be used again after a call that
failed in the middle of many nested files.  A *session* is such a use: calls of one
expander, one after the other, with any changes of the disk in between.

`session_memoryless` says that nothing of a call is left for the next one.  Every call finds the
expander as it was made and has the result that a new expander has on the disk of that
moment.  The record of a watched run shows that the counter of open imports is within its
range all the time.
-/

namespace DeviceSheet

/-- A call of an expander. -/
inductive Call where
  /-- Expands a text. -/
  | ofText (text : Text)
  /-- Reads and expands a file. -/
  | ofFile (path : Path)
deriving DecidableEq

/-- The steps that a call takes, plain or watched. -/
def Call.expansion {m : Type → Type} [Monad m] [MonadStateOf Expander m] [MonadLiftT Action m] :
    Call → ExceptT Failure m Text
  | .ofText text => Expander.resolve text
  | .ofFile path => Expander.resolveFile path

/-- What happens in a session. -/
inductive SessionStep where
  /-- The expander is called. -/
  | call (call : Call)
  /-- The disk is changed by other hands. -/
  | edit (change : Disk → Disk)

/-- A call in a session, with the disk and the expander it was made on and what it came to. -/
structure Visit where
  call : Call
  disk : Disk
  before : Expander
  result : Except Failure Text
  after : Expander
deriving DecidableEq

/-- The call under watch. -/
def Visit.watched (v : Visit) : Outcome (Except Failure Text × Watch) :=
  (Watch.run ⟨v.before, []⟩ v.call.expansion).run v.disk

/-- The calls of a session that starts with the given expander and disk. -/
def session (x : Expander) (d : Disk) : List SessionStep → List Visit
  | [] => []
  | .edit change :: steps => session x (change d) steps
  | .call call :: steps =>
      let outcome := (x.run call.expansion).run d
      ⟨call, d, x, outcome.value.1, outcome.value.2⟩ ::
        session outcome.value.2 outcome.disk steps

/-- One call of a fresh expander. -/
theorem mirrors_call (d : Disk) (base : Path) (limit : UInt64) (call : Call) :
    Mirrors (Change.Sound d limit) d { base := base, limit := limit } call.expansion
      call.expansion := by
  have hfresh := orderly_fresh d base limit
  cases call with
  | ofText text => exact mirrors_resolve hfresh text
  | ofFile path => exact mirrors_resolveFile hfresh rfl path

/-- Every call of a session is one of a fresh expander. -/
theorem session_visit {base : Path} {limit : UInt64} {steps : List SessionStep} {d : Disk}
    {v : Visit} (h : v ∈ session { base := base, limit := limit } d steps) :
    v.before = { base := base, limit := limit } ∧
      (v.result, v.after) = ((v.before.run v.call.expansion).run v.disk).value := by
  induction steps generalizing d with
  | nil => simp [session] at h
  | cons step steps ih =>
    cases step with
    | edit change => exact ih h
    | call call =>
      obtain ⟨result, requests, changes, hplain, -, -⟩ := mirrors_call d base limit call
      rw [session, hplain, List.mem_cons] at h
      rcases h with rfl | h
      · exact ⟨rfl, by rw [hplain]⟩
      · exact ih h

/-- An expander has no memory.  After every call of a session its chain is empty and its depth is
zero, and the call had the result that a fresh expander has on the disk of that moment.  During
the call the depth stayed within the limit and moved by one at a time. -/
theorem session_memoryless (base : Path) (limit : UInt64) (d : Disk) (steps : List SessionStep) :
    ∀ v ∈ session { base := base, limit := limit } d steps,
      v.after.chain = [] ∧ v.after.depth = 0 ∧
      v.result =
        ((Expander.run { base := base, limit := limit } v.call.expansion).run v.disk).value.1 ∧
      v.watched.value.1 = v.result ∧
      ∀ c ∈ v.watched.value.2.past,
        c.before.depth.toNat ≤ limit.toNat ∧ c.after.depth.toNat ≤ limit.toNat ∧
        (c.after.depth.toNat = c.before.depth.toNat + 1 ∨
          c.before.depth.toNat = c.after.depth.toNat + 1 ∨ c.after.depth = c.before.depth) := by
  intro v hv
  obtain ⟨hbefore, hvalue⟩ := session_visit hv
  obtain ⟨result, requests, changes, hplain, hwatched, hsound⟩ :=
    mirrors_call v.disk base limit v.call
  rw [hbefore, hplain] at hvalue
  obtain ⟨hresult, hafter⟩ := Prod.mk.inj hvalue
  rw [Visit.watched, hbefore, hwatched, hplain, hafter, hresult]
  refine ⟨rfl, rfl, rfl, rfl, ?_⟩
  intro c hc
  have hc := hsound c (by simpa using hc)
  exact ⟨hc.before.depth_le_limit, hc.after.depth_le_limit, hc.depth⟩

/-- A file imports itself, and the call fails while the file is open.  Then the file is mended, and
the call is made again. -/
theorem session_memoryless_mended :
    let sheet := "@import \"m\";".toList
    let x : Expander := { base := ⟨"/".toList⟩, limit := 2 }
    let broken : Disk := ⟨[([['m']], .file (Text.encode sheet))], []⟩
    let mended : Disk := broken.insert [['m']] (.file (Text.encode "a".toList))
    let steps : List SessionStep :=
      [.call (.ofText sheet), .edit fun _ => mended, .call (.ofText sheet)]
    let v : Visit := ⟨.ofText sheet, mended, x, .ok "a".toList, x⟩
    ((x.run (Call.ofText sheet).expansion).run broken).value.1 =
        .error (.importCycle ⟨"/m".toList⟩) ∧
      v ∈ session x broken steps ∧ v.after.chain = [] ∧ v.after.depth = 0 ∧
      v.result = ((x.run v.call.expansion).run v.disk).value.1 := by
  intro sheet x broken mended steps v
  have hv : v ∈ session x broken steps := by decide +kernel
  obtain ⟨hchain, hdepth, hresult, -, -⟩ :=
    session_memoryless ⟨"/".toList⟩ 2 broken steps v hv
  exact ⟨by decide +kernel, hv, hchain, hdepth, hresult⟩

end DeviceSheet
