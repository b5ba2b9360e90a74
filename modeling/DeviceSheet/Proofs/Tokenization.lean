import DeviceSheet.Proofs.Grammar

/-!
# The one tokenization of a text

A *tokenization* cuts a text into tokens that each have a right to stand where they
stand.  What a token may be is said by the grammar and by the places where keywords start, and
not by a scan.

* A call or a directive is a spelling at its offset, with the parts of that spelling.
* A literal is the whole run up to the next keyword, or it is the first character of a
  keyword that no insertion starts with.

Every text has exactly one tokenization, its scan.  The step is `Token.next?_eq_some_iff`: the
first token of a text is the only one that fits there.  What holds of the first token of every
text holds of all tokens of a scan (`exists_next?_of_mem_scan`).
-/

namespace DeviceSheet

/-! ## Offsets -/

/-- The tokens with the offsets they start at, when the first one starts at `start`. -/
def placed (start : Nat) : List Token → List (Nat × Token)
  | [] => []
  | token :: tokens => (start, token) :: placed (start + token.lexeme.length) tokens

@[simp] theorem placed_nil (start : Nat) : placed start [] = [] := rfl

@[simp] theorem placed_cons (start : Nat) (token : Token) (tokens : List Token) :
    placed start (token :: tokens) =
      (start, token) :: placed (start + token.lexeme.length) tokens := rfl

/-- A token is not placed before the offset of the first one. -/
theorem le_of_mem_placed {start i : Nat} {token : Token} {tokens : List Token}
    (h : (i, token) ∈ placed start tokens) : start ≤ i := by
  induction tokens generalizing start with
  | nil => simp at h
  | cons first tokens ih =>
    rw [placed_cons, List.mem_cons] at h
    rcases h with h | h
    · cases h
      exact Nat.le_refl _
    · have := ih h
      omega

/-! ## Places where keywords start -/

/-- One of the two keywords stands at the front of the text. -/
def StartsKeyword (t : Text) : Prop :=
  DeviceCall.keyword <+: t ∨ Directive.keyword <+: t

theorem Text.isSome_after? {t word : Text} : (t.after? word).isSome = true ↔ word <+: t := by
  rw [Option.isSome_iff_exists]
  constructor
  · rintro ⟨r, h⟩
    exact ⟨r, (after?_eq_some.1 h).symm⟩
  · rintro ⟨r, h⟩
    exact ⟨r, after?_eq_some.2 h.symm⟩

theorem startsInsertion_iff {t : Text} : startsInsertion t = true ↔ StartsKeyword t := by
  rw [startsInsertion, Bool.or_eq_true, Text.isSome_after?, Text.isSome_after?]
  rfl

theorem DeviceCall.Heads.startsKeyword {t lexeme : Text} {call : DeviceCall}
    (h : Heads t lexeme call) : StartsKeyword t := by
  obtain ⟨rest, rfl, hspell, hrest⟩ := h
  obtain ⟨u, hu, _⟩ := append_of_read? (read?_of_spelling hspell hrest)
  exact Or.inl ⟨u, hu.symm⟩

theorem Directive.Heads.startsKeyword {t lexeme path : Text} (h : Heads t lexeme path) :
    StartsKeyword t := by
  obtain ⟨rest, rfl, hspell⟩ := h
  obtain ⟨u, hu, _⟩ := append_of_read? (read?_of_spelling hspell rest)
  exact Or.inr ⟨u, hu.symm⟩

/-- No text starts with both keywords. -/
theorem not_keyword_and_keyword {t : Text} (hcall : DeviceCall.keyword <+: t)
    (hdirective : Directive.keyword <+: t) : False := by
  obtain ⟨u, rfl⟩ := hcall
  obtain ⟨v, hv⟩ := hdirective
  exact absurd (List.cons.inj hv).1 (by decide)

/-- The readers do not take a text that no keyword starts. -/
theorem read?_eq_none_of_not_startsKeyword {t : Text} (h : ¬ StartsKeyword t) :
    DeviceCall.read? t = none ∧ Directive.read? t = none :=
  ⟨DeviceCall.read?_eq_none_iff.2 fun _ _ hheads => h hheads.startsKeyword,
    Directive.read?_eq_none_iff.2 fun _ _ hheads => h hheads.startsKeyword⟩

/-- The reader of calls does not take a directive. -/
theorem DeviceCall.read?_eq_none_of_directive {t lexeme path : Text}
    (h : Directive.Heads t lexeme path) : DeviceCall.read? t = none := by
  obtain ⟨rest, rfl, hspell⟩ := h
  obtain ⟨u, hu, _⟩ := Directive.append_of_read? (Directive.read?_of_spelling hspell rest)
  rw [Option.eq_none_iff_forall_ne_some]
  rintro ⟨call, r⟩ hread
  obtain ⟨v, hv, _⟩ := DeviceCall.append_of_read? hread
  exact not_keyword_and_keyword ⟨v, hv.symm⟩ ⟨u, hu.symm⟩

/-! ## Literals -/

/-- The text starts with a run in which no keyword starts, and which ends with the text or where
a keyword starts. -/
def LiteralRun (t lexeme : Text) : Prop :=
  ∃ rest, t = lexeme ++ rest ∧ (∀ i < lexeme.length, ¬ StartsKeyword (t.drop i)) ∧
    (rest = [] ∨ StartsKeyword rest)

/-- The first character of a keyword that no insertion starts with. -/
def StrayKeyword (t lexeme : Text) : Prop :=
  (∃ c rest, lexeme = [c] ∧ t = c :: rest) ∧ StartsKeyword t ∧
    (∀ l call, ¬ DeviceCall.Heads t l call) ∧ (∀ l path, ¬ Directive.Heads t l path)

namespace Token

/-- No keyword starts in a run as it is read, and the run ends where one starts. -/
theorem literalRun_spec (t : Text) :
    (∀ i < (literalRun t).1.length, ¬ StartsKeyword (t.drop i)) ∧
      ((literalRun t).2 = [] ∨ StartsKeyword (literalRun t).2) := by
  induction t with
  | nil => simp [literalRun]
  | cons c t ih =>
    rw [literalRun]
    split
    · next h => exact ⟨by simp, Or.inr (startsInsertion_iff.1 h)⟩
    · next h =>
      obtain ⟨hinside, hend⟩ := ih
      refine ⟨?_, hend⟩
      intro i hi
      cases i with
      | zero => exact fun hk => h (startsInsertion_iff.2 hk)
      | succ i => exact hinside i (by simpa using hi)

/-- Only one run fits a text. -/
theorem literalRun_eq {lexeme rest : Text}
    (hinside : ∀ i < lexeme.length, ¬ StartsKeyword ((lexeme ++ rest).drop i))
    (hend : rest = [] ∨ StartsKeyword rest) : literalRun (lexeme ++ rest) = (lexeme, rest) := by
  induction lexeme with
  | nil =>
    cases rest with
    | nil => rfl
    | cons c rest =>
      have hk : StartsKeyword (c :: rest) := hend.resolve_left (by simp)
      rw [List.nil_append, literalRun, if_pos (startsInsertion_iff.2 hk)]
  | cons c lexeme ih =>
    have hhead : ¬ startsInsertion (c :: (lexeme ++ rest)) = true := fun hk =>
      hinside 0 (by simp) (startsInsertion_iff.1 hk)
    have htail : ∀ i < lexeme.length, ¬ StartsKeyword ((lexeme ++ rest).drop i) := by
      intro i hi
      exact hinside (i + 1) (by simpa using hi)
    rw [List.cons_append, literalRun, if_neg hhead, ih htail]

theorem literalRun_iff {t lexeme rest : Text} :
    literalRun t = (lexeme, rest) ↔ t = lexeme ++ rest ∧
      (∀ i < lexeme.length, ¬ StartsKeyword (t.drop i)) ∧ (rest = [] ∨ StartsKeyword rest) := by
  constructor
  · intro h
    have happ := literalRun_append t
    have hspec := literalRun_spec t
    rw [h] at happ hspec
    exact ⟨happ.symm, hspec⟩
  · rintro ⟨rfl, hinside, hend⟩
    exact literalRun_eq hinside hend

/-! ## The token that fits -/

/-- The token has a right to stand at the front of the text. -/
def Fits (t : Text) : Token → Prop
  | .device lexeme call => DeviceCall.Heads t lexeme call
  | .directive lexeme path => Directive.Heads t lexeme path
  | .literal lexeme => LiteralRun t lexeme ∨ StrayKeyword t lexeme

/-- The first token of a text fits there. -/
theorem fits_of_next? {t rest : Text} {token : Token} (h : next? t = some (token, rest)) :
    Fits t token := by
  unfold next? at h
  split at h
  · cases h
  · next c t =>
    split at h
    · next call r hr =>
      cases h
      exact DeviceCall.heads_of_read? hr
    · next hcall =>
      split at h
      · next path r hr =>
        cases h
        exact Directive.heads_of_read? hr
      · next hdirective =>
        split at h
        · next hk =>
          cases h
          exact Or.inr ⟨⟨c, _, rfl, rfl⟩, startsInsertion_iff.1 hk,
            DeviceCall.read?_eq_none_iff.1 hcall, Directive.read?_eq_none_iff.1 hdirective⟩
        · cases h
          exact Or.inl ⟨_, literalRun_iff.1 rfl⟩

/-- A token that fits a text and is not empty is its first token. -/
theorem next?_of_fits {token : Token} {rest : Text} (hne : token.lexeme ≠ [])
    (h : Fits (token.lexeme ++ rest) token) :
    next? (token.lexeme ++ rest) = some (token, rest) := by
  -- `next?` looks at the first character before it calls the readers
  obtain ⟨c, u, hcu⟩ := List.exists_cons_of_ne_nil hne
  have ht : token.lexeme ++ rest = c :: (u ++ rest) := by rw [hcu, List.cons_append]
  cases token with
  | device lexeme call =>
    obtain ⟨rest', heq, hspell, hrest⟩ := h
    cases List.append_cancel_left heq
    have hread := DeviceCall.read?_of_spelling hspell hrest
    have hlex := Text.upTo_append_right lexeme rest
    simp only [Token.lexeme] at ht ⊢
    rw [ht] at hread hlex ⊢
    simp only [next?, hread, hlex]
  | directive lexeme path =>
    have hcall := DeviceCall.read?_eq_none_of_directive h
    obtain ⟨rest', heq, hspell⟩ := h
    cases List.append_cancel_left heq
    have hread := Directive.read?_of_spelling hspell rest
    have hlex := Text.upTo_append_right lexeme rest
    simp only [Token.lexeme] at ht ⊢
    rw [ht] at hread hlex ⊢
    simp only [Token.lexeme, ht] at hcall
    simp only [next?, hcall, hread, hlex]
  | literal lexeme =>
    rcases h with hrun | hstray
    · obtain ⟨rest', heq, hinside, hend⟩ := hrun
      cases List.append_cancel_left heq
      have hk : ¬ StartsKeyword (lexeme ++ rest) := hinside 0 (List.length_pos_iff.2 hne)
      obtain ⟨hcall, hdirective⟩ := read?_eq_none_of_not_startsKeyword hk
      have hrun := literalRun_eq hinside hend
      rw [← startsInsertion_iff] at hk
      simp only [Token.lexeme] at ht ⊢
      rw [ht] at hcall hdirective hk hrun ⊢
      simp only [next?, hcall, hdirective, if_neg hk, hrun]
    · obtain ⟨⟨d, v, rfl, hv⟩, hk, hcall, hdirective⟩ := hstray
      rw [← DeviceCall.read?_eq_none_iff] at hcall
      rw [← Directive.read?_eq_none_iff] at hdirective
      rw [← startsInsertion_iff] at hk
      simp only [Token.lexeme, List.singleton_append] at hcall hdirective hk ⊢
      simp only [next?, hcall, hdirective, if_pos hk]

/-- The first token of a text is the only token that fits there. -/
theorem next?_eq_some_iff {t rest : Text} {token : Token} :
    next? t = some (token, rest) ↔
      token.lexeme ≠ [] ∧ t = token.lexeme ++ rest ∧ Fits t token := by
  constructor
  · intro h
    exact ⟨lexeme_ne_nil_of_next? h, (append_of_next? h).symm, fits_of_next? h⟩
  · rintro ⟨hne, rfl, hfits⟩
    exact next?_of_fits hne hfits

end Token

/-! ## Tokenizations -/

/-- The tokens make up the text, none of them is empty, and each fits at its offset. -/
structure Tokenization (t : Text) (tokens : List Token) : Prop where
  /-- The lexemes in a row are the text. -/
  lossless : tokens.flatMap Token.lexeme = t
  /-- No lexeme is empty. -/
  lexeme_ne : ∀ token ∈ tokens, token.lexeme ≠ []
  /-- Each token has a right to stand where it stands. -/
  fits : ∀ i token, (i, token) ∈ placed 0 tokens → token.Fits (t.drop i)

/-- Induction along a scan: from the rest of a text to the text with its first token. -/
@[elab_as_elim] theorem scan_induction {motive : Text → Prop} (t : Text) (nil : motive [])
    (step : ∀ (token : Token) (rest : Text), token.lexeme ≠ [] →
      Token.next? (token.lexeme ++ rest) = some (token, rest) → motive rest →
      motive (token.lexeme ++ rest)) : motive t := by
  generalize hn : t.length = n
  induction n using Nat.strongRecOn generalizing t with
  | _ n ih =>
    cases h : Token.next? t with
    | none =>
      rw [Token.next?_eq_none.1 h]
      exact nil
    | some pair =>
      obtain ⟨token, rest⟩ := pair
      have hlt := Token.length_lt_of_next? h
      have happ := Token.append_of_next? h
      rw [← happ] at h ⊢
      exact step token rest (Token.lexeme_ne_nil_of_next? h) h (ih _ (by omega) rest rfl)

/-- The first token of a scan is the first token of the text. -/
theorem scan_eq_cons {t : Text} {token : Token} {tokens : List Token}
    (h : scan t = token :: tokens) :
    ∃ rest, Token.next? t = some (token, rest) ∧ scan rest = tokens := by
  induction t using scan_induction with
  | nil => simp at h
  | step first rest _ hnext _ =>
    rw [scan_of_next? hnext] at h
    cases h
    exact ⟨rest, hnext, rfl⟩

/-- Tokens that make up the text from some offset on and fit there are the scan from that
offset. -/
theorem scan_eq_of_fits {t : Text} :
    ∀ {tokens : List Token} {start : Nat}, tokens.flatMap Token.lexeme = t.drop start →
      (∀ token ∈ tokens, token.lexeme ≠ []) →
      (∀ i token, (i, token) ∈ placed start tokens → token.Fits (t.drop i)) →
      scan (t.drop start) = tokens
  | [], start, happ, _, _ => by
      rw [← happ]
      exact scan_nil
  | token :: tokens, start, happ, hne, hfits => by
      have hrest : tokens.flatMap Token.lexeme = t.drop (start + token.lexeme.length) := by
        rw [← List.drop_drop, ← happ, List.flatMap_cons, List.drop_left]
      have hnext : Token.next? (t.drop start) =
          some (token, t.drop (start + token.lexeme.length)) := by
        rw [Token.next?_eq_some_iff]
        refine ⟨hne token (by simp), ?_, hfits start token (by simp)⟩
        rw [← hrest, ← happ, List.flatMap_cons]
      rw [scan_of_next? hnext]
      congr 1
      refine scan_eq_of_fits hrest (fun token' h => hne token' (by simp [h])) ?_
      intro i token' h
      exact hfits i token' (by simp [h])

theorem flatMap_lexeme_scan (t : Text) : (scan t).flatMap Token.lexeme = t := by
  induction t using scan_induction with
  | nil => simp
  | step token rest _ hnext ih => rw [scan_of_next? hnext, List.flatMap_cons, ih]

/-- Every token of a scan is the first token of some text. -/
theorem exists_next?_of_mem_scan {t : Text} {token : Token} (h : token ∈ scan t) :
    ∃ rest, Token.next? (token.lexeme ++ rest) = some (token, rest) := by
  induction t using scan_induction with
  | nil => simp at h
  | step first rest _ hnext ih =>
    rw [scan_of_next? hnext, List.mem_cons] at h
    rcases h with rfl | h
    · exact ⟨rest, hnext⟩
    · exact ih h

/-- Every token of a scan fits where it stands, also in a longer text in front of it. -/
theorem fits_of_mem_placed_scan {front t : Text} {i : Nat} {token : Token}
    (h : (i, token) ∈ placed front.length (scan t)) : token.Fits ((front ++ t).drop i) := by
  induction t using scan_induction generalizing front with
  | nil => simp at h
  | step first rest _ hnext ih =>
    rw [scan_of_next? hnext, placed_cons, List.mem_cons] at h
    rcases h with h | h
    · cases h
      rw [List.drop_left]
      exact Token.fits_of_next? hnext
    · rw [← List.length_append] at h
      rw [← List.append_assoc]
      exact ih h

/-- Every text has exactly one tokenization, and the scan finds it. -/
theorem tokenization_iff_eq_scan (t : Text) (tokens : List Token) :
    Tokenization t tokens ↔ tokens = scan t := by
  constructor
  · rintro ⟨lossless, lexeme_ne, fits⟩
    exact (scan_eq_of_fits lossless lexeme_ne fits).symm
  · rintro rfl
    refine ⟨flatMap_lexeme_scan t, ?_, fun i token h => @fits_of_mem_placed_scan [] t i token h⟩
    intro token htoken
    obtain ⟨rest, hnext⟩ := exists_next?_of_mem_scan htoken
    exact Token.lexeme_ne_nil_of_next? hnext

end DeviceSheet
