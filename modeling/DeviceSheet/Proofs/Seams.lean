import DeviceSheet.Proofs.AppendedCall

/-!
# Where the pieces of an expansion meet

An expanded text is put together from pieces of many files and is not scanned again.  A *stretch*
is a piece without a break: the text of one file from one directive to the next.  A *seam* is a
place where two stretches meet, at the start or at the end of an inlined file.

* No stretch has a directive in it (`Stretches.not_within`).  The tokens of a stretch are no
  directives, and a directive that starts inside of another token would have been read there.
* So a directive in an expanded text lies across a seam (`Stretches.across`).  Its first part comes
  from one file and its last part from another.

There are such directives.  A file may end in the middle of a keyword, and the text after its
directive may go on with the keyword.
-/

namespace DeviceSheet

/-! ## Directives inside of a text -/

namespace Directive

/-- A directive stands somewhere in the text. -/
def Within (t : Text) : Prop := ∃ path lexeme, Spelling path lexeme ∧ lexeme <:+: t

theorem Spelling.at_sign {path lexeme : Text} (h : Spelling path lexeme) :
    ∃ tail, lexeme = '@' :: tail := by
  obtain ⟨_, _, _, _⟩ := h
  have hword : "@import".toList = '@' :: "import".toList := by decide
  rw [hword]
  simp only [List.append_assoc, List.cons_append]
  exact ⟨_, rfl⟩

theorem Heads.lt_length {t lexeme path : Text} {i : Nat} (h : Heads (t.drop i) lexeme path) :
    i < t.length := by
  obtain ⟨rest, hrest, hspell⟩ := h
  obtain ⟨tail, rfl⟩ := hspell.at_sign
  by_contra hlong
  rw [List.drop_eq_nil_of_le (Nat.not_lt.1 hlong)] at hrest
  cases hrest

/-- A directive stands in the text if one starts in it and does not reach beyond it. -/
theorem not_within_of_append {t rest : Text}
    (h : ∀ i < t.length, ∀ lexeme path, ¬ Heads ((t ++ rest).drop i) lexeme path) :
    ¬ Within t := by
  rintro ⟨path, lexeme, hspell, before, after, rfl⟩
  obtain ⟨tail, htail⟩ := hspell.at_sign
  refine h before.length (by simp [htail]) lexeme path ⟨after ++ rest, ?_, hspell⟩
  simp only [List.append_assoc, List.drop_left]

end Directive

/-- No directive starts inside of a token that is none, whatever follows the token. -/
theorem Token.Fits.not_heads {token : Token} {rest : Text}
    (hfits : token.Fits (token.lexeme ++ rest)) (htoken : token.isDirective = false) {i : Nat}
    (hi : i < token.lexeme.length) (lexeme path : Text) :
    ¬ Directive.Heads ((token.lexeme ++ rest).drop i) lexeme path := by
  intro hheads
  cases token with
  | directive => cases htoken
  | device front call =>
    simp only [Token.lexeme] at hfits hi hheads
    obtain ⟨rest', heq, hspell, -⟩ := hfits
    obtain ⟨after, hafter, hdirective⟩ := hheads
    obtain ⟨tail, rfl⟩ := hdirective.at_sign
    -- the at sign would be a character of the call
    rw [List.drop_append_of_le_length (Nat.le_of_lt hi), List.drop_eq_getElem_cons hi] at hafter
    have hat : front[i] = '@' := (List.cons.inj hafter).1
    exact hspell.notMem.1 (hat ▸ List.getElem_mem hi)
  | literal front =>
    simp only [Token.lexeme] at hfits hi hheads
    rcases hfits with ⟨_, _, hinside, _⟩ | ⟨⟨c, _, rfl, _⟩, _, _, hdirective⟩
    · exact hinside i hi hheads.startsKeyword
    · obtain rfl : i = 0 := by simpa using hi
      exact hdirective lexeme path hheads

/-! ## Stretches -/

/-- The stretches of the expansion of tokens, in order.  The first one is what stands in front of
the first directive. -/
inductive Stretches (d : Disk) (base : Path) : List Token → List Text → Prop
  | nil : Stretches d base [] [[]]
  /-- A token that is no directive makes the stretch longer that it stands in. -/
  | keep {token : Token} {rest : List Token} {first : Text} {others : List Text}
      (htoken : token.isDirective = false)
      (hrest : Stretches d base rest (first :: others)) :
      Stretches d base (token :: rest) ((token.lexeme ++ first) :: others)
  /-- A directive ends a stretch.  The stretches of its file follow, then those of the tokens
  after it. -/
  | inline {rest : List Token} {lexeme target text : Text} {inner after : List Text}
      (hread : d.read (base.join ⟨target⟩) = .ok text)
      (hinner : Stretches d base (scan text) inner)
      (hrest : Stretches d base rest after) :
      Stretches d base (.directive lexeme target :: rest) ([] :: (inner ++ after))

variable {d : Disk} {base : Path} {tokens : List Token} {pieces : List Text}

/-- The stretches make up the expansion. -/
theorem Stretches.expands (h : Stretches d base tokens pieces) :
    ∃ height, Expands d base tokens pieces.flatten height := by
  induction h with
  | nil => exact ⟨0, .nil⟩
  | keep htoken _ ih =>
    obtain ⟨height, hrest⟩ := ih
    rw [List.flatten_cons, List.append_assoc]
    exact ⟨height, .keep htoken hrest⟩
  | inline hread _ _ ihinner ihrest =>
    obtain ⟨inner, hinner⟩ := ihinner
    obtain ⟨height, hrest⟩ := ihrest
    rw [List.flatten_cons, List.nil_append, List.flatten_append]
    exact ⟨_, .inline hread hinner hrest⟩

theorem Stretches.ne_nil (h : Stretches d base tokens pieces) : pieces ≠ [] := by
  cases h <;> simp

/-- What can be expanded has stretches. -/
theorem Expands.exists_stretches {r : Text} {height : Nat} (h : Expands d base tokens r height) :
    ∃ pieces, Stretches d base tokens pieces := by
  induction h with
  | nil => exact ⟨_, .nil⟩
  | keep htoken _ ih =>
    obtain ⟨pieces, hrest⟩ := ih
    obtain ⟨first, others, rfl⟩ := List.exists_cons_of_ne_nil hrest.ne_nil
    exact ⟨_, .keep htoken hrest⟩
  | inline hread _ _ ihinner ihrest =>
    obtain ⟨inner, hinner⟩ := ihinner
    obtain ⟨after, hrest⟩ := ihrest
    exact ⟨_, .inline hread hinner hrest⟩

/-- The first stretch of a text stands at its front, and no directive of the text starts in it.  No
other stretch has a directive in it. -/
theorem Stretches.first_and_others {t : Text} (h : Stretches d base (scan t) pieces) :
    ∃ first others rest, pieces = first :: others ∧ t = first ++ rest ∧
      (∀ i < first.length, ∀ lexeme path, ¬ Directive.Heads (t.drop i) lexeme path) ∧
      ∀ piece ∈ others, ¬ Directive.Within piece := by
  generalize htokens : scan t = tokens at h
  -- the tokens of an inlined file come from a scan of their own
  induction h generalizing t with
  | nil => exact ⟨[], [], t, rfl, rfl, by simp, by simp⟩
  | @keep token _ _ _ htoken _ ih =>
    obtain ⟨u, hnext, hu⟩ := scan_eq_cons htokens
    obtain ⟨first, others, rest, hpieces, rfl, hfirst, hothers⟩ := ih hu
    cases hpieces
    obtain rfl := Token.append_of_next? hnext
    refine ⟨_, _, rest, rfl, (List.append_assoc ..).symm, ?_, hothers⟩
    intro i hi lexeme path
    by_cases hfront : i < token.lexeme.length
    · exact (Token.fits_of_next? hnext).not_heads htoken hfront lexeme path
    · rw [List.drop_append, List.drop_eq_nil_of_le (Nat.not_lt.1 hfront), List.nil_append]
      rw [List.length_append] at hi
      exact hfirst _ (by omega) lexeme path
  | inline hread _ _ ihinner ihrest =>
    obtain ⟨u, hnext, hu⟩ := scan_eq_cons htokens
    obtain ⟨first, others, rest, rfl, rfl, hfirst, hothers⟩ := ihinner rfl
    obtain ⟨first', others', rest', rfl, rfl, hfirst', hothers'⟩ := ihrest hu
    refine ⟨[], _, t, rfl, rfl, by simp, ?_⟩
    simp only [List.cons_append, List.mem_cons, List.mem_append]
    rintro piece (rfl | hpiece | rfl | hpiece)
    · exact Directive.not_within_of_append hfirst
    · exact hothers piece hpiece
    · exact Directive.not_within_of_append hfirst'
    · exact hothers' piece hpiece

/-- No stretch has a directive in it. -/
theorem Stretches.not_within {t : Text} (h : Stretches d base (scan t) pieces) :
    ∀ piece ∈ pieces, ¬ Directive.Within piece := by
  obtain ⟨first, others, rest, rfl, rfl, hfirst, hothers⟩ := h.first_and_others
  intro piece hpiece
  rcases List.mem_cons.1 hpiece with rfl | hpiece
  · exact Directive.not_within_of_append hfirst
  · exact hothers piece hpiece

/-! ## Seams -/

/-- One of the pieces ends at the offset, and the next one starts there. -/
def SeamAt (pieces : List Text) (k : Nat) : Prop :=
  ∃ front back, pieces = front ++ back ∧ front.flatten.length = k

/-- What stands in a row of pieces and in none of them lies across a seam. -/
theorem exists_seamAt {before word after : Text} (hpieces : ∀ piece ∈ pieces, ¬ word <:+: piece)
    (h : pieces.flatten = before ++ (word ++ after)) (hword : word ≠ []) :
    ∃ k, SeamAt pieces k ∧ before.length < k ∧ k < before.length + word.length := by
  induction pieces generalizing before with
  | nil => simp [hword] at h
  | cons piece others ih =>
    rw [List.flatten_cons] at h
    have hpiece : piece <+: before ++ (word ++ after) := ⟨_, h⟩
    have hbefore : before <+: before ++ (word ++ after) := List.prefix_append ..
    by_cases hlength : piece.length ≤ before.length
    · -- the word starts behind the first piece
      obtain ⟨between, rfl⟩ := List.prefix_of_prefix_length_le hpiece hbefore hlength
      rw [List.append_assoc] at h
      obtain ⟨k, ⟨front, back, rfl, rfl⟩, hlow, hhigh⟩ :=
        ih (fun p hp => hpieces p (List.mem_cons_of_mem piece hp)) (List.append_cancel_left h)
      refine ⟨piece.length + front.flatten.length, ⟨piece :: front, back, rfl, by simp⟩, ?_, ?_⟩
      · simpa using hlow
      · rw [List.length_append]
        omega
    · -- the word starts in the first piece, and the first seam lies in it
      refine ⟨piece.length, ⟨[piece], others, rfl, by simp⟩, by omega, ?_⟩
      by_contra hlong
      have hword : before ++ word <+: before ++ (word ++ after) :=
        ⟨after, List.append_assoc ..⟩
      obtain ⟨rest, rfl⟩ := List.prefix_of_prefix_length_le hword hpiece
        (by rw [List.length_append]; omega)
      exact hpieces _ List.mem_cons_self ⟨before, rest, rfl⟩

/-- A directive in an expansion lies across a seam. -/
theorem Stretches.across {t : Text} {i : Nat} {lexeme path : Text}
    (h : Stretches d base (scan t) pieces)
    (hheads : Directive.Heads (pieces.flatten.drop i) lexeme path) :
    ∃ k, SeamAt pieces k ∧ i < k ∧ k < i + lexeme.length := by
  have hi := Nat.le_of_lt hheads.lt_length
  obtain ⟨after, hafter, hspell⟩ := hheads
  obtain ⟨tail, htail⟩ := hspell.at_sign
  have hsplit : pieces.flatten = pieces.flatten.take i ++ (lexeme ++ after) := by
    rw [← hafter, List.take_append_drop]
  have hnone : ∀ piece ∈ pieces, ¬ lexeme <:+: piece :=
    fun piece hpiece hinfix => h.not_within piece hpiece ⟨path, lexeme, hspell, hinfix⟩
  obtain ⟨k, hseam, hlow, hhigh⟩ := exists_seamAt hnone hsplit (by simp [htail])
  rw [List.length_take_of_le hi] at hlow hhigh
  exact ⟨k, hseam, hlow, hhigh⟩

/-! ## Expanding an expansion -/

/-- Tokens that are no directives stand for themselves. -/
theorem Expands.of_no_directive (h : ∀ token ∈ tokens, token.isDirective = false) :
    Expands d base tokens (tokens.flatMap Token.lexeme) 0 := by
  induction tokens with
  | nil => exact .nil
  | cons token rest ih =>
    exact .keep (h token List.mem_cons_self) (ih fun t ht => h t (List.mem_cons_of_mem _ ht))

namespace Expander

/-- The stretches of a text make up its expansion, and every directive in the expansion lies across
a seam between two of them.  An expansion without directives is its own expansion. -/
theorem resolve_leaves_seams (d : Disk) (base : Path) (limit : UInt64) (s r : Text)
    (h : ((job { base := base, limit := limit } (resolve s)).run d).value = .ok r) :
    (∃ pieces, Stretches d base (scan s) pieces) ∧
    (∀ pieces, Stretches d base (scan s) pieces → pieces.flatten = r ∧
      ∀ i lexeme path, Directive.Heads (r.drop i) lexeme path →
        ∃ k, SeamAt pieces k ∧ i < k ∧ k < i + lexeme.length) ∧
    ((∀ token ∈ scan r, token.isDirective = false) → ∀ limit' : UInt64,
      ((job { base := base, limit := limit' } (resolve r)).run d).value = .ok r) := by
  have hcomes := comesTo_resolve d base limit s
  rw [h] at hcomes
  obtain ⟨height, -, hexpands⟩ := hcomes.expands
  refine ⟨hexpands.exists_stretches, ?_, ?_⟩
  · intro pieces hpieces
    obtain ⟨height', hexpands'⟩ := hpieces.expands
    obtain ⟨rfl, -⟩ := hexpands.unique hexpands'
    exact ⟨rfl, fun i lexeme path hheads => hpieces.across hheads⟩
  · intro hnone limit'
    have hself : Expands d base (scan r) _ 0 := Expands.of_no_directive hnone
    rw [flatMap_lexeme_scan] at hself
    exact ((comesTo_resolve d base limit' r).eq_ok_iff fun _ n _ => OpenAbove.nil n).2
      ⟨0, Nat.zero_le _, hself⟩

/-- A file with the first half of a keyword, and the other half after its directive.  The
expansion is a directive, and expanding it again gives another text. -/
theorem resolve_joins_keyword :
    let d : Disk := ⟨[([['a']], .file (Text.encode "@imp".toList)),
      ([['x']], .file (Text.encode "X".toList))], []⟩
    let s := "@import \"a\";ort \"x\";".toList
    let r := "@import \"x\";".toList
    let x : Expander := { base := ⟨"/".toList⟩ }
    ((x.job (resolve s)).run d).value = .ok r ∧ scan r = [.directive r ['x']] ∧
      ((x.job (resolve r)).run d).value = .ok ['X'] := by
  decide +kernel

/-- The seam lies inside of the directive that was joined. -/
theorem resolve_leaves_seams_keyword :
    let d : Disk := ⟨[([['a']], .file (Text.encode "@imp".toList))], []⟩
    let s := "@import \"a\";ort \"x\";".toList
    let r := "@import \"x\";".toList
    let base : Path := ⟨"/".toList⟩
    ((job { base := base, limit := 1 } (resolve s)).run d).value = .ok r ∧
      ∃ pieces, Stretches d base (scan s) pieces ∧ pieces.flatten = r ∧
        ∃ k, SeamAt pieces k ∧ 0 < k ∧ k < r.length := by
  intro d s r base
  have h : ((job { base := base, limit := 1 } (resolve s)).run d).value = .ok r := by
    decide +kernel
  obtain ⟨⟨pieces, hpieces⟩, hseams, -⟩ := resolve_leaves_seams d base 1 s r h
  obtain ⟨hflatten, hacross⟩ := hseams pieces hpieces
  have hread : Directive.read? r = some (['x'], []) := by decide
  have hheads : Directive.Heads (r.drop 0) r ['x'] := Directive.heads_of_read? hread
  obtain ⟨k, hseam, hlow, hhigh⟩ := hacross 0 r ['x'] hheads
  exact ⟨h, pieces, hpieces, hflatten, k, hseam, hlow, by omega⟩

end Expander

end DeviceSheet
