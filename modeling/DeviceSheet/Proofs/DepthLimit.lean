import DeviceSheet.Proofs.Nesting

/-!
# Raising the depth limit

The limit on the nesting of imports can keep an expansion from going on.  It has no other effect:
an expansion that does not meet the limit comes to the same end under every higher one.

Two runs with different limits go through the same tokens and open the same files until the
lower limit is met, and the run under the lower limit ends there (`ComesTo.raise`).  A run has one
end (`ComesTo.unique`), so the other run has the same end if the lower limit is not met.
-/

namespace DeviceSheet

variable {d : Disk} {base : Path} {limit limit' : UInt64} {chain : List Identity} {depth : Nat}
  {tokens : List Token} {result result' : Except Failure Text}

/-- Tokens come to one end. -/
theorem ComesTo.unique (h : ComesTo d base limit chain depth tokens result)
    (h' : ComesTo d base limit chain depth tokens result') : result = result' := by
  induction h generalizing result' with
  | nil =>
    cases h'
    rfl
  | keep htoken _ ih =>
    cases h' with
    | keep _ hrest' => rw [ih hrest']
    | tooDeep | unreadable | cycle | fail | inline => cases htoken
  | tooDeep hdepth =>
    cases h' with
    | keep htoken => cases htoken
    | tooDeep => rfl
    | unreadable hdepth' | cycle hdepth' | fail hdepth' | inline hdepth' => omega
  | unreadable hdepth hread =>
    cases h' with
    | keep htoken => cases htoken
    | tooDeep => omega
    | unreadable _ hread' =>
      cases hread.symm.trans hread'
      rfl
    | cycle _ hread' | fail _ hread' | inline _ hread' => cases hread.symm.trans hread'
  | cycle hdepth hread hopen =>
    cases h' with
    | keep htoken => cases htoken
    | tooDeep => omega
    | unreadable _ hread' => cases hread.symm.trans hread'
    | cycle => rfl
    | fail _ _ hclosed | inline _ _ hclosed => cases hopen.symm.trans hclosed
  | fail hdepth hread hclosed _ ih =>
    cases h' with
    | keep htoken => cases htoken
    | tooDeep => omega
    | unreadable _ hread' => cases hread.symm.trans hread'
    | cycle _ _ hopen => cases hclosed.symm.trans hopen
    | fail _ hread' _ hinner' =>
      cases hread.symm.trans hread'
      exact ih hinner'
    | inline _ hread' _ hinner' =>
      cases hread.symm.trans hread'
      cases ih hinner'
  | inline hdepth hread hclosed _ _ ihinner ihrest =>
    cases h' with
    | keep htoken => cases htoken
    | tooDeep => omega
    | unreadable _ hread' => cases hread.symm.trans hread'
    | cycle _ _ hopen => cases hclosed.symm.trans hopen
    | fail _ hread' _ hinner' =>
      cases hread.symm.trans hread'
      cases ihinner hinner'
    | inline _ hread' _ hinner' hrest' =>
      cases hread.symm.trans hread'
      cases ihinner hinner'
      rw [ihrest hrest']

/-- The run meets the lower limit, or it is a run under the higher limit as well. -/
theorem ComesTo.raise (hle : limit.toNat ≤ limit'.toNat)
    (h : ComesTo d base limit chain depth tokens result) :
    (∃ path, result = .error (.importTooDeep path limit)) ∨
      ComesTo d base limit' chain depth tokens result := by
  induction h with
  | nil => exact .inr .nil
  | keep htoken _ ih =>
    rcases ih with ⟨path, rfl⟩ | hrest
    · exact .inl ⟨path, rfl⟩
    · exact .inr (.keep htoken hrest)
  | tooDeep => exact .inl ⟨_, rfl⟩
  | unreadable hdepth hread => exact .inr (.unreadable (by omega) hread)
  | cycle hdepth hread hopen => exact .inr (.cycle (by omega) hread hopen)
  | fail hdepth hread hclosed _ ih =>
    rcases ih with hdeep | hinner
    · exact .inl hdeep
    · exact .inr (.fail (by omega) hread hclosed hinner)
  | inline hdepth hread hclosed _ _ ihinner ihrest =>
    rcases ihinner with ⟨path, hok⟩ | hinner
    · cases hok
    · rcases ihrest with ⟨path, rfl⟩ | hrest
      · exact .inl ⟨path, rfl⟩
      · exact .inr (.inline (by omega) hread hclosed hinner hrest)

/-- Under a higher limit a call has the result that it has under the lower one, unless the lower
limit is met. -/
theorem result_of_higher_limit (d : Disk) (base : Path) (call : Call) (limit limit' : UInt64)
    (hle : limit ≤ limit') :
    (∃ path, call.result d base limit = .error (.importTooDeep path limit)) ∨
      call.result d base limit' = call.result d base limit := by
  cases hsource : call.source d with
  | error cause =>
    obtain ⟨path, hfail⟩ := Call.result_of_source_error hsource
    exact .inr ((hfail base limit').trans (hfail base limit).symm)
  | ok top =>
    have hlow := Call.comesTo base limit hsource
    have hhigh := Call.comesTo base limit' hsource
    rcases hlow.raise (UInt64.le_iff_toNat_le.1 hle) with hdeep | hraised
    · exact .inl hdeep
    · exact .inr (hhigh.unique hraised)

/-- The second of two siblings cannot be read, and the first nests two deep.  With room for one
the limit is met first; from two on the missing file is. -/
theorem result_of_higher_limit_siblings :
    let d : Disk := ⟨[([['m']], .file (Text.encode "@import \"n\";".toList)),
      ([['n']], .file (Text.encode "a".toList))], []⟩
    let base : Path := ⟨"/".toList⟩
    let call : Call := .ofText "@import \"m\";@import \"x\";".toList
    call.result d base 1 = .error (.importTooDeep ⟨"/n".toList⟩ 1) ∧
      call.result d base 2 = .error (.importUnreadable ⟨"/x".toList⟩ .missing) ∧
      (2 : UInt64) ≤ 9 ∧ call.result d base 9 = call.result d base 2 := by
  intro d base call
  have hlow : call.result d base 2 = .error (.importUnreadable ⟨"/x".toList⟩ .missing) := by
    decide +kernel
  refine ⟨by decide +kernel, hlow, by decide, ?_⟩
  rcases result_of_higher_limit d base call 2 9 (by decide) with ⟨path, hdeep⟩ | hsame
  · rw [hlow] at hdeep
    cases hdeep
  · exact hsame

end DeviceSheet
