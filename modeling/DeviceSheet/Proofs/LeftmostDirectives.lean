import DeviceSheet.Proofs.Seams
import DeviceSheet.Proofs.Unambiguity

/-!
# The leftmost directives

Directives can overlap.  The path of one may hold the start of another, as in
`@import "@import ";x";`, and only one of the two can be a token.  This module says which directives
are tokens, without a scan and with a slower one.

* The directives of a scan are the *leftmost* ones (`Leftmost`).  A directive is left out only if a
  directive that was chosen starts before it and reaches beyond its start.  There is one such choice
  (`Leftmost.unique`).
* Nothing else hides a directive.  None starts in a call, in a run of literal text or at the first
  character of a malformed insertion.
* A *sweep* tries both readers at every single character and goes on by one character where both
  fail.  It finds the same calls and directives as the scan, which goes on to the next keyword at
  once (`sweep_eq`).
-/

namespace DeviceSheet

/-! ## Offsets -/

/-- Every offset of a row of tokens lies in one of them. -/
theorem exists_mem_placed {start j : Nat} {tokens : List Token} (hstart : start ≤ j)
    (hj : j < start + (tokens.flatMap Token.lexeme).length) :
    ∃ i token, (i, token) ∈ placed start tokens ∧ i ≤ j ∧ j < i + token.lexeme.length := by
  induction tokens generalizing start with
  | nil => exact absurd hj (by simpa using hstart)
  | cons token tokens ih =>
    rw [List.flatMap_cons, List.length_append] at hj
    by_cases hfirst : j < start + token.lexeme.length
    · exact ⟨start, token, List.mem_cons_self, hstart, hfirst⟩
    · obtain ⟨i, other, hmem, hi⟩ := ih (Nat.not_lt.1 hfirst) (by omega)
      exact ⟨i, other, List.mem_cons_of_mem _ hmem, hi⟩

/-- A token ends before another one starts behind it. -/
theorem le_of_mem_placed_of_lt {start i j : Nat} {a b : Token} {tokens : List Token}
    (ha : (i, a) ∈ placed start tokens) (hb : (j, b) ∈ placed start tokens) (hij : i < j) :
    i + a.lexeme.length ≤ j := by
  induction tokens generalizing start with
  | nil => simp at ha
  | cons token tokens ih =>
    rw [placed_cons, List.mem_cons] at ha hb
    rcases ha with ha | ha
    · cases ha
      rcases hb with hb | hb
      · cases hb
        exact absurd hij (Nat.lt_irrefl _)
      · exact le_of_mem_placed hb
    · rcases hb with hb | hb
      · cases hb
        have := le_of_mem_placed ha
        omega
      · exact ih ha hb

/-- A token of a scan fits at its offset. -/
theorem fits_of_mem_scan {t : Text} {i : Nat} {token : Token}
    (h : (i, token) ∈ placed 0 (scan t)) : token.Fits (t.drop i) :=
  @fits_of_mem_placed_scan [] t i token h

theorem Token.Fits.exists_rest {t : Text} {token : Token} (h : token.Fits t) :
    ∃ rest, t = token.lexeme ++ rest := by
  cases token with
  | device =>
    obtain ⟨rest, ht, -⟩ := h
    exact ⟨rest, ht⟩
  | directive =>
    obtain ⟨rest, ht, -⟩ := h
    exact ⟨rest, ht⟩
  | literal =>
    rcases h with ⟨rest, ht, -⟩ | ⟨⟨c, rest, rfl, ht⟩, -⟩
    · exact ⟨rest, ht⟩
    · exact ⟨rest, ht⟩

/-! ## The leftmost choice -/

/-- A choice of directives, each with its offset, its lexeme and its path, is the leftmost one if it
leaves out only the directives that start strictly inside of a chosen one. -/
def Leftmost (t : Text) (chosen : Nat → Text → Text → Prop) : Prop :=
  ∀ j lexeme path, chosen j lexeme path ↔ Directive.Heads (t.drop j) lexeme path ∧
    ¬ ∃ i lexeme' path', chosen i lexeme' path' ∧ i < j ∧ j < i + lexeme'.length

/-- There is one leftmost choice. -/
theorem Leftmost.unique {t : Text} {chosen chosen' : Nat → Text → Text → Prop}
    (h : Leftmost t chosen) (h' : Leftmost t chosen') (j : Nat) (lexeme path : Text) :
    chosen j lexeme path ↔ chosen' j lexeme path := by
  -- a choice at an offset depends on the choices before it
  induction j using Nat.strongRecOn generalizing lexeme path with
  | _ j ih =>
    rw [h, h']
    refine and_congr_right fun _ => not_congr ?_
    constructor
    · rintro ⟨i, lexeme', path', hchosen, hlt, hinside⟩
      exact ⟨i, lexeme', path', (ih i hlt lexeme' path').1 hchosen, hlt, hinside⟩
    · rintro ⟨i, lexeme', path', hchosen, hlt, hinside⟩
      exact ⟨i, lexeme', path', (ih i hlt lexeme' path').2 hchosen, hlt, hinside⟩

/-- No directive starts in a token of a scan that is none. -/
theorem not_heads_of_mem_placed_scan {t : Text} {i j : Nat} {token : Token}
    (h : (i, token) ∈ placed 0 (scan t)) (htoken : token.isDirective = false) (hij : i ≤ j)
    (hj : j < i + token.lexeme.length) (lexeme path : Text) :
    ¬ Directive.Heads (t.drop j) lexeme path := by
  have hfits := fits_of_mem_scan h
  obtain ⟨rest, hrest⟩ := hfits.exists_rest
  have hdrop : t.drop j = (token.lexeme ++ rest).drop (j - i) := by
    rw [← hrest, List.drop_drop, Nat.add_sub_cancel' hij]
  rw [hrest] at hfits
  rw [hdrop]
  exact hfits.not_heads htoken (by omega) lexeme path

/-- The directives of a scan are the leftmost ones. -/
theorem leftmost_scan (t : Text) :
    Leftmost t fun j lexeme path => (j, .directive lexeme path) ∈ placed 0 (scan t) := by
  intro j lexeme path
  constructor
  · intro h
    refine ⟨fits_of_mem_scan h, ?_⟩
    rintro ⟨i, lexeme', path', hearlier, hlt, hinside⟩
    exact absurd (le_of_mem_placed_of_lt hearlier h hlt) (Nat.not_le.2 hinside)
  · rintro ⟨hheads, hfree⟩
    obtain ⟨i, token, hmem, hij, hinside⟩ :=
      @exists_mem_placed 0 j (scan t) (Nat.zero_le j)
        (by simpa [flatMap_lexeme_scan] using hheads.lt_length)
    cases token with
    | literal => exact absurd hheads (not_heads_of_mem_placed_scan hmem rfl hij hinside _ _)
    | device => exact absurd hheads (not_heads_of_mem_placed_scan hmem rfl hij hinside _ _)
    | directive lexeme' path' =>
      have hstart : i = j := by
        refine Nat.le_antisymm hij (Nat.not_lt.1 fun hlt => ?_)
        exact hfree ⟨i, lexeme', path', hmem, hlt, hinside⟩
      subst hstart
      have hfits : Directive.Heads (t.drop i) lexeme' path' := fits_of_mem_scan hmem
      obtain ⟨rfl, rfl, -⟩ := hheads.unique hfits
      exact hmem

/-! ## The sweep -/

namespace Token

/-- Is the token a call or a directive? -/
def isInsertion : Token → Bool
  | .literal _ => false
  | .directive _ _ | .device _ _ => true

/-- The call or the directive at the front of a text, with the text after it. -/
def insertion? (t : Text) : Option (Token × Text) :=
  match DeviceCall.read? t with
  | some (call, rest) => some (.device (t.upTo rest) call, rest)
  | none =>
      match Directive.read? t with
      | some (path, rest) => some (.directive (t.upTo rest) path, rest)
      | none => none

/-- An insertion at the front of a text is its first token. -/
theorem next?_of_insertion? {t rest : Text} {token : Token}
    (h : insertion? t = some (token, rest)) : next? t = some (token, rest) := by
  cases t with
  | nil => cases h
  | cons c t =>
    cases hcall : DeviceCall.read? (c :: t) with
    | some read =>
      rw [insertion?, hcall] at h
      rw [next?, hcall]
      exact h
    | none =>
      cases hdirective : Directive.read? (c :: t) with
      | some read =>
        rw [insertion?, hcall, hdirective] at h
        rw [next?, hcall, hdirective]
        exact h
      | none =>
        rw [insertion?, hcall, hdirective] at h
        cases h

end Token

/-- The calls and directives that are found when both readers are tried at every single character of
a text.  Where both fail the sweep goes on by one character.  The text stands at the given
offset. -/
def sweep (start : Nat) (t : Text) : List (Nat × Token) :=
  match t with
  | [] => []
  | c :: t =>
      match _h : Token.insertion? (c :: t) with
      | some (token, rest) => (start, token) :: sweep (start + token.lexeme.length) rest
      | none => sweep (start + 1) t
termination_by t.length
decreasing_by
  · exact Token.length_lt_of_next? (Token.next?_of_insertion? _h)
  · exact Nat.lt_succ_self _

theorem sweep_nil (start : Nat) : sweep start [] = [] := by
  rw [sweep]

theorem sweep_of_insertion? {t rest : Text} {token : Token} (start : Nat)
    (h : Token.insertion? t = some (token, rest)) :
    sweep start t = (start, token) :: sweep (start + token.lexeme.length) rest := by
  cases t with
  | nil => cases h
  | cons c t =>
    rw [sweep]
    split
    · next hs =>
      cases h.symm.trans hs
      rfl
    · next hn => cases h.symm.trans hn

/-- The sweep finds nothing in a text in which no insertion starts. -/
theorem sweep_append {t rest : Text} (start : Nat)
    (h : ∀ i < t.length, Token.insertion? ((t ++ rest).drop i) = none) :
    sweep start (t ++ rest) = sweep (start + t.length) rest := by
  induction t generalizing start with
  | nil => rfl
  | cons c t ih =>
    have hhead : Token.insertion? (c :: (t ++ rest)) = none := h 0 (by simp)
    have htail : ∀ i < t.length, Token.insertion? ((t ++ rest).drop i) = none := by
      intro i hi
      exact h (i + 1) (by simpa using hi)
    have hlength : start + (c :: t).length = start + 1 + t.length := by
      rw [List.length_cons]
      omega
    rw [hlength, ← ih (start + 1) htail, List.cons_append, sweep]
    split
    · next hs => cases hhead.symm.trans hs
    · rfl

theorem Token.insertion?_eq_none {t : Text} (hcall : DeviceCall.read? t = none)
    (hdirective : Directive.read? t = none) : insertion? t = none := by
  simp only [insertion?, hcall, hdirective]

/-- A call or a directive that fits a text is the insertion at its front. -/
theorem Token.insertion?_of_fits {token : Token} {rest : Text} (htoken : token.isInsertion = true)
    (h : token.Fits (token.lexeme ++ rest)) :
    insertion? (token.lexeme ++ rest) = some (token, rest) := by
  cases token with
  | literal => cases htoken
  | device lexeme call =>
    obtain ⟨rest', heq, hspell, hrest⟩ := h
    cases List.append_cancel_left heq
    simp only [Token.lexeme, insertion?, DeviceCall.read?_of_spelling hspell hrest,
      Text.upTo_append_right]
  | directive lexeme path =>
    have hcall := DeviceCall.read?_eq_none_of_directive h
    obtain ⟨rest', heq, hspell⟩ := h
    cases List.append_cancel_left heq
    simp only [Token.lexeme] at hcall ⊢
    simp only [insertion?, hcall, Directive.read?_of_spelling hspell rest, Text.upTo_append_right]

/-- No insertion starts in a literal that fits a text. -/
theorem Token.insertion?_of_literal {lexeme rest : Text} {i : Nat}
    (h : (literal lexeme).Fits (lexeme ++ rest)) (hi : i < lexeme.length) :
    insertion? ((lexeme ++ rest).drop i) = none := by
  rcases h with ⟨_, _, hinside, _⟩ | ⟨⟨c, _, rfl, _⟩, _, hcall, hdirective⟩
  · obtain ⟨hcall, hdirective⟩ := read?_eq_none_of_not_startsKeyword (hinside i hi)
    exact insertion?_eq_none hcall hdirective
  · obtain rfl : i = 0 := by simpa using hi
    exact insertion?_eq_none (DeviceCall.read?_eq_none_iff.2 hcall)
      (Directive.read?_eq_none_iff.2 hdirective)

/-- The sweep finds the calls and directives of the scan, with their offsets. -/
theorem sweep_eq (start : Nat) (t : Text) :
    sweep start t = (placed start (scan t)).filter fun found => found.2.isInsertion := by
  induction t using scan_induction generalizing start with
  | nil => rw [sweep_nil, scan_nil, placed_nil, List.filter_nil]
  | step token rest hne hnext ih =>
    have hfits := Token.fits_of_next? hnext
    rw [scan_of_next? hnext, placed_cons]
    cases htoken : token.isInsertion with
    | true =>
      rw [List.filter_cons_of_pos (by exact htoken), ← ih]
      exact sweep_of_insertion? start (Token.insertion?_of_fits htoken hfits)
    | false =>
      rw [List.filter_cons_of_neg (by simp [htoken]), ← ih]
      cases token with
      | literal lexeme => exact sweep_append start fun i hi => Token.insertion?_of_literal hfits hi
      | directive => cases htoken
      | device => cases htoken

/-! ## What a scan takes -/

/-- Where a directive stands, the scan takes it unless it starts strictly inside of a directive that
the scan took before.  The directives of the scan are the one leftmost choice, no other token has
the start of a directive in it, and calls and directives are those of a sweep. -/
theorem scan_takes_leftmost_directives (t : Text) :
    (∀ j lexeme path, Directive.Heads (t.drop j) lexeme path →
      ((∃ lexeme' path', (j, .directive lexeme' path') ∈ placed 0 (scan t)) ↔
        ¬ ∃ i lexeme' path', (i, .directive lexeme' path') ∈ placed 0 (scan t) ∧
          i < j ∧ j < i + lexeme'.length)) ∧
    (∀ chosen, Leftmost t chosen ↔ ∀ j lexeme path,
      chosen j lexeme path ↔ (j, .directive lexeme path) ∈ placed 0 (scan t)) ∧
    (∀ i token, (i, token) ∈ placed 0 (scan t) → token.isDirective = false →
      ∀ j, i ≤ j → j < i + token.lexeme.length →
        ∀ lexeme path, ¬ Directive.Heads (t.drop j) lexeme path) ∧
    sweep 0 t = (placed 0 (scan t)).filter fun found => found.2.isInsertion := by
  refine ⟨?_, ?_, ?_, sweep_eq 0 t⟩
  · intro j lexeme path hheads
    constructor
    · rintro ⟨lexeme', path', hmem⟩
      exact ((leftmost_scan t j lexeme' path').1 hmem).2
    · intro hfree
      exact ⟨lexeme, path, (leftmost_scan t j lexeme path).2 ⟨hheads, hfree⟩⟩
  · intro chosen
    constructor
    · intro hchosen
      exact hchosen.unique (leftmost_scan t)
    · intro hsame
      have heq : chosen = fun j lexeme path => (j, .directive lexeme path) ∈ placed 0 (scan t) := by
        funext j lexeme path
        exact propext (hsame j lexeme path)
      rw [heq]
      exact leftmost_scan t
  · intro i token hmem htoken j hij hj
    exact not_heads_of_mem_placed_scan hmem htoken hij hj

/-- Two directives that overlap, the second one in the path of the first. -/
theorem scan_takes_leftmost_directives_nested :
    let t := "@import \"@import \";x\";".toList
    (Directive.Heads t (t.take 19) "@import ".toList ∧
      Directive.Heads (t.drop 9) (t.drop 9) ";x".toList) ∧
    (0, .directive (t.take 19) "@import ".toList) ∈ placed 0 (scan t) ∧
    ¬ ∃ lexeme path, (9, .directive lexeme path) ∈ placed 0 (scan t) := by
  intro t
  have houter : Directive.Heads t (t.take 19) "@import ".toList :=
    Directive.exists_read?_iff_heads.1 ⟨t.drop 19, by decide +kernel, by decide +kernel⟩
  have hinner : Directive.Heads (t.drop 9) (t.drop 9) ";x".toList :=
    Directive.exists_read?_iff_heads.1 ⟨[], by decide +kernel, by decide +kernel⟩
  obtain ⟨hstarts, hleftmost, -, -⟩ := scan_takes_leftmost_directives t
  have hfirst : (0, .directive (t.take 19) "@import ".toList) ∈ placed 0 (scan t) := by
    refine ((hleftmost _).2 (fun _ _ _ => Iff.rfl) 0 _ _).2 ⟨houter, ?_⟩
    rintro ⟨i, _, _, _, hlt, _⟩
    exact absurd hlt (Nat.not_lt_zero i)
  refine ⟨⟨houter, hinner⟩, hfirst, fun hsecond => ?_⟩
  exact (hstarts 9 _ _ hinner).1 hsecond ⟨0, _, _, hfirst, by decide, by decide +kernel⟩

end DeviceSheet
