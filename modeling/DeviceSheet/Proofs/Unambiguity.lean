import Mathlib.Data.List.Forall2
import DeviceSheet.Proofs.Grammar

/-!
# One way to cut an insertion

The rule for calls and the rule for directives are rows of *segments*: fixed words, blanks, and runs
of characters that are kept.  A *cut* of a text has one piece for every segment.  A rule says
nothing about how far a segment goes, so a text might have several cuts, and a reader that takes
each segment as far as it goes might miss some of them.

It does not, because of the places where two segments meet.  No piece of the second one starts with
a character that the first one could go on with (`Segment.Meets`).  So the first piece is the
longest one, and the pieces of a text are fixed from left to right (`Cut.unique`).  At the end of a
call no segment follows its blanks, and what follows the call has to end them.

Hence at most one call and at most one directive stand at an offset, each with one lexeme, one
choice of the words that are kept and one cut (`DeviceCall.Heads.unique`, `Directive.Heads.unique`).
These are what the readers take.
-/

namespace DeviceSheet

/-! ## Segments -/

/-- A part of a rule. -/
inductive Segment where
  /-- A fixed word. -/
  | word (text : Text)
  /-- Any number of blanks. -/
  | blanks
  /-- At least one character of a class.  The run is kept. -/
  | run (p : Char → Bool)

namespace Segment

/-- The segment describes the piece. -/
def Takes : Segment → Text → Prop
  | .word text, piece => piece = text
  | .blanks, piece => piece.Over isBlank
  | .run p, piece => piece ≠ [] ∧ piece.Over p

/-- The segment could not go on into the text that follows it. -/
def Ends : Segment → Text → Prop
  | .word _, _ => True
  | .blanks, rest => rest.Stops isBlank
  | .run p, rest => rest.Stops p

/-- The first segment ends wherever the second one starts. -/
def Meets (s next : Segment) : Prop := ∀ piece rest, next.Takes piece → s.Ends (piece ++ rest)

theorem word_meets {text : Text} {next : Segment} : (word text).Meets next :=
  fun _ _ _ => trivial

theorem blanks_meets_word {text : Text} (h : text.head?.map isBlank = some false) :
    blanks.Meets (.word text) := by
  rintro _ rest rfl
  exact Text.stops_append h rest

theorem blanks_meets_run {p : Char → Bool} (hp : ∀ c, isBlank c = true → p c = false) :
    blanks.Meets (.run p) := by
  rintro piece rest ⟨hne, hpiece⟩
  exact hpiece.stops (Text.apart_symm hp) fun h => absurd h hne

theorem run_meets_word {p : Char → Bool} {text : Text} (h : text.head?.map p = some false) :
    (run p).Meets (.word text) := by
  rintro _ rest rfl
  exact Text.stops_append h rest

end Segment

/-- A segment takes one piece of a text and no other, if it cannot go on behind the piece. -/
theorem Segment.Takes.unique {s : Segment} {piece piece' rest rest' : Text} (h : s.Takes piece)
    (hrest : s.Ends rest) (h' : s.Takes piece') (hrest' : s.Ends rest')
    (heq : piece ++ rest = piece' ++ rest') : piece = piece' ∧ rest = rest' := by
  cases s with
  | word text =>
    cases h
    cases h'
    exact ⟨rfl, List.append_cancel_left heq⟩
  | blanks => exact Text.Over.append_inj h hrest h' hrest' heq
  | run p => exact h.2.append_inj hrest h'.2 hrest' heq

/-! ## Rules -/

/-- The last segment of the rule could not go on into the text that follows. -/
def EndsBefore (rule : List Segment) (rest : Text) : Prop :=
  ∀ s, rule.getLast? = some s → s.Ends rest

/-- A text is cut into pieces, one for every segment of the rule. -/
structure Cut (rule : List Segment) (text : Text) (pieces : List Text) : Prop where
  /-- Every segment takes its piece. -/
  takes : List.Forall₂ Segment.Takes rule pieces
  /-- The pieces in a row are the text. -/
  flatten : pieces.flatten = text

/-- The pieces that are kept, those of the runs. -/
def kept : List Segment → List Text → List Text
  | .run _ :: rule, piece :: pieces => piece :: kept rule pieces
  | _ :: rule, _ :: pieces => kept rule pieces
  | _, _ => []

theorem EndsBefore.tail {s : Segment} {rule : List Segment} {rest : Text}
    (h : EndsBefore (s :: rule) rest) : EndsBefore rule rest := by
  intro last hlast
  refine h last ?_
  rw [List.getLast?_cons, hlast]
  rfl

/-- A segment ends where the segments after it start, or else where the rule ends. -/
theorem Segment.ends_flatten {s : Segment} {rule : List Segment} {pieces : List Text} {rest : Text}
    (hrule : (s :: rule).IsChain Meets) (h : List.Forall₂ Takes rule pieces)
    (hrest : EndsBefore (s :: rule) rest) : s.Ends (pieces.flatten ++ rest) := by
  cases h with
  | nil => exact hrest s rfl
  | cons htakes _ =>
    rw [List.flatten_cons, List.append_assoc]
    exact (List.isChain_cons_cons.1 hrule).1 _ _ htakes

/-- A rule whose segments meet properly cuts a text in one way. -/
theorem Cut.unique {rule : List Segment} (hrule : rule.IsChain Segment.Meets)
    {text text' rest rest' : Text} {pieces pieces' : List Text} (h : Cut rule text pieces)
    (hrest : EndsBefore rule rest) (h' : Cut rule text' pieces') (hrest' : EndsBefore rule rest')
    (heq : text ++ rest = text' ++ rest') : pieces = pieces' ∧ rest = rest' := by
  obtain ⟨htakes, rfl⟩ := h
  obtain ⟨htakes', rfl⟩ := h'
  -- the first pieces agree by what follows them, and then the texts behind them agree
  induction htakes generalizing pieces' with
  | nil =>
    cases htakes'
    exact ⟨rfl, heq⟩
  | cons hfirst hothers ih =>
    cases htakes' with
    | cons hfirst' hothers' =>
      rw [List.flatten_cons, List.flatten_cons, List.append_assoc, List.append_assoc] at heq
      obtain ⟨rfl, hbehind⟩ := hfirst.unique (Segment.ends_flatten hrule hothers hrest) hfirst'
        (Segment.ends_flatten hrule hothers' hrest') heq
      obtain ⟨rfl, rfl⟩ := ih hrule.of_cons hrest.tail hrest'.tail hothers' hbehind
      exact ⟨rfl, rfl⟩

/-- What such a rule takes from the front of a text, what it keeps and how it cuts it are fixed. -/
theorem Cut.only {rule : List Segment} (hrule : rule.IsChain Segment.Meets)
    {text text' rest rest' : Text} {pieces pieces' : List Text} (h : Cut rule text pieces)
    (hrest : EndsBefore rule rest) (h' : Cut rule text' pieces') (hrest' : EndsBefore rule rest')
    (heq : text ++ rest = text' ++ rest') :
    text = text' ∧ kept rule pieces = kept rule pieces' ∧ ∃! pieces, Cut rule text pieces := by
  obtain ⟨rfl, rfl⟩ := h.unique hrule hrest h' hrest' heq
  refine ⟨List.append_cancel_right heq, rfl, pieces, h, ?_⟩
  intro other hother
  exact (hother.unique hrule hrest h hrest rfl).1

/-! ## The two rules -/

/-- The rule for calls. -/
def DeviceCall.rule : List Segment :=
  [.word keyword, .blanks, .word "(".toList, .blanks,
    .word "name:".toList, .blanks, .word "\"".toList, .run isNameChar, .word "\",".toList, .blanks,
    .word "width:".toList, .blanks, .run isDimensionChar, .word ",".toList, .blanks,
    .word "height:".toList, .blanks, .run isDimensionChar, .word ")".toList, .blanks]

/-- The rule for directives. -/
def Directive.rule : List Segment :=
  [.word keyword, .blanks, .word "\"".toList, .run isPathChar, .word "\"".toList, .blanks,
    .word ";".toList]

open Segment in
theorem DeviceCall.isChain_rule : rule.IsChain Meets :=
  .cons_cons word_meets <| .cons_cons (blanks_meets_word (by decide)) <|
  .cons_cons word_meets <| .cons_cons (blanks_meets_word (by decide)) <|
  .cons_cons word_meets <| .cons_cons (blanks_meets_word (by decide)) <|
  .cons_cons word_meets <| .cons_cons (run_meets_word (by decide)) <|
  .cons_cons word_meets <| .cons_cons (blanks_meets_word (by decide)) <|
  .cons_cons word_meets <| .cons_cons (blanks_meets_run isDimensionChar_of_isBlank) <|
  .cons_cons (run_meets_word (by decide)) <|
  .cons_cons word_meets <| .cons_cons (blanks_meets_word (by decide)) <|
  .cons_cons word_meets <| .cons_cons (blanks_meets_run isDimensionChar_of_isBlank) <|
  .cons_cons (run_meets_word (by decide)) <|
  .cons_cons word_meets <| .singleton _

open Segment in
theorem Directive.isChain_rule : rule.IsChain Meets :=
  .cons_cons word_meets <| .cons_cons (blanks_meets_word (by decide)) <|
  .cons_cons word_meets <| .cons_cons (run_meets_word (by decide)) <|
  .cons_cons word_meets <| .cons_cons (blanks_meets_word (by decide)) <| .singleton _

/-- The spellings of a call are the texts that the rule cuts and of which it keeps the parts of the
call. -/
theorem DeviceCall.spelling_iff_cut {call : DeviceCall} {lexeme : Text} :
    Spelling call lexeme ↔
      ∃ pieces, Cut rule lexeme pieces ∧
        kept rule pieces = [call.name, call.width, call.height] := by
  constructor
  · rintro ⟨hb₁, hb₂, hb₃, name_ne, hname, hb₄, hb₅, width_ne, hwidth, hb₆, hb₇, height_ne, hheight,
      hb₈⟩
    refine ⟨_, ⟨.cons rfl <| .cons hb₁ <| .cons rfl <| .cons hb₂ <| .cons rfl <| .cons hb₃ <|
      .cons rfl <| .cons ⟨name_ne, hname⟩ <| .cons rfl <| .cons hb₄ <| .cons rfl <| .cons hb₅ <|
      .cons ⟨width_ne, hwidth⟩ <| .cons rfl <| .cons hb₆ <| .cons rfl <| .cons hb₇ <|
      .cons ⟨height_ne, hheight⟩ <| .cons rfl <| .cons hb₈ .nil, ?_⟩, rfl⟩
    simp only [List.flatten_cons, List.flatten_nil, List.append_assoc, List.append_nil]
    rfl
  · rintro ⟨pieces, ⟨htakes, rfl⟩, hkept⟩
    obtain _ | ⟨rfl, _ | ⟨hb₁, _ | ⟨rfl, _ | ⟨hb₂, _ | ⟨rfl, _ | ⟨hb₃, _ | ⟨rfl,
      _ | ⟨⟨name_ne, hname⟩, _ | ⟨rfl, _ | ⟨hb₄, _ | ⟨rfl, _ | ⟨hb₅, _ | ⟨⟨width_ne, hwidth⟩,
      _ | ⟨rfl, _ | ⟨hb₆, _ | ⟨rfl, _ | ⟨hb₇, _ | ⟨⟨height_ne, hheight⟩,
      _ | ⟨rfl, _ | ⟨hb₈, _ | _⟩⟩⟩⟩⟩⟩⟩⟩⟩⟩⟩⟩⟩⟩⟩⟩⟩⟩⟩⟩ := htakes
    obtain ⟨name, width, height⟩ := call
    cases hkept
    have hspell := Spelling.intro hb₁ hb₂ hb₃ name_ne hname hb₄ hb₅ width_ne hwidth hb₆ hb₇
      height_ne hheight hb₈
    simp only [List.flatten_cons, List.flatten_nil, List.append_assoc, List.append_nil] at hspell ⊢
    exact hspell

/-- The spellings of a directive are the texts that the rule cuts and of which it keeps the path. -/
theorem Directive.spelling_iff_cut {path lexeme : Text} :
    Spelling path lexeme ↔ ∃ pieces, Cut rule lexeme pieces ∧ kept rule pieces = [path] := by
  constructor
  · rintro ⟨hb₁, path_ne, hpath, hb₂⟩
    refine ⟨_, ⟨.cons rfl <| .cons hb₁ <| .cons rfl <| .cons ⟨path_ne, hpath⟩ <| .cons rfl <|
      .cons hb₂ <| .cons rfl .nil, ?_⟩, rfl⟩
    simp only [List.flatten_cons, List.flatten_nil, List.append_assoc, List.append_nil]
    rfl
  · rintro ⟨pieces, ⟨htakes, rfl⟩, hkept⟩
    obtain _ | ⟨rfl, _ | ⟨hb₁, _ | ⟨rfl, _ | ⟨⟨path_ne, hpath⟩, _ | ⟨rfl, _ | ⟨hb₂,
      _ | ⟨rfl, _ | _⟩⟩⟩⟩⟩⟩⟩ := htakes
    cases hkept
    have hspell := Spelling.intro hb₁ path_ne hpath hb₂
    simp only [List.flatten_cons, List.flatten_nil, List.append_assoc, List.append_nil] at hspell ⊢
    exact hspell

/-! ## What stands at an offset -/

/-- The reader takes a call with its lexeme exactly where they stand. -/
theorem DeviceCall.exists_read?_iff_heads {t lexeme : Text} {call : DeviceCall} :
    (∃ rest, read? t = some (call, rest) ∧ t = lexeme ++ rest) ↔ Heads t lexeme call := by
  constructor
  · rintro ⟨rest, hread, ht⟩
    obtain ⟨lexeme', ht', hspell, hrest⟩ := read?_eq_some_iff.1 hread
    cases List.append_cancel_right (ht.symm.trans ht')
    exact ⟨rest, ht, hspell, hrest⟩
  · rintro ⟨rest, rfl, hspell, hrest⟩
    exact ⟨rest, read?_of_spelling hspell hrest, rfl⟩

/-- The reader takes a directive with its lexeme exactly where they stand. -/
theorem Directive.exists_read?_iff_heads {t lexeme path : Text} :
    (∃ rest, read? t = some (path, rest) ∧ t = lexeme ++ rest) ↔ Heads t lexeme path := by
  constructor
  · rintro ⟨rest, hread, ht⟩
    obtain ⟨lexeme', ht', hspell⟩ := read?_eq_some_iff.1 hread
    cases List.append_cancel_right (ht.symm.trans ht')
    exact ⟨rest, ht, hspell⟩
  · rintro ⟨rest, rfl, hspell⟩
    exact ⟨rest, read?_of_spelling hspell rest, rfl⟩

/-- At most one call stands at the front of a text, and its lexeme has one cut. -/
theorem DeviceCall.Heads.unique {t lexeme lexeme' : Text} {call call' : DeviceCall}
    (h : Heads t lexeme call) (h' : Heads t lexeme' call') :
    lexeme = lexeme' ∧ call = call' ∧ ∃! pieces, Cut rule lexeme pieces := by
  -- the last segment of the rule is blanks
  have hends : ∀ {rest : Text}, rest.Stops isBlank → EndsBefore rule rest := by
    rintro rest hrest _ ⟨⟩
    exact hrest
  obtain ⟨rest, rfl, hspell, hrest⟩ := h
  obtain ⟨rest', heq, hspell', hrest'⟩ := h'
  obtain ⟨pieces, hcut, hkept⟩ := spelling_iff_cut.1 hspell
  obtain ⟨pieces', hcut', hkept'⟩ := spelling_iff_cut.1 hspell'
  obtain ⟨hlexeme, hsame, honly⟩ :=
    hcut.only isChain_rule (hends hrest) hcut' (hends hrest') heq
  rw [hkept, hkept'] at hsame
  obtain ⟨name, width, height⟩ := call
  cases hsame
  exact ⟨hlexeme, rfl, honly⟩

/-- At most one directive stands at the front of a text, and its lexeme has one cut. -/
theorem Directive.Heads.unique {t lexeme lexeme' path path' : Text} (h : Heads t lexeme path)
    (h' : Heads t lexeme' path') :
    lexeme = lexeme' ∧ path = path' ∧ ∃! pieces, Cut rule lexeme pieces := by
  -- the last segment of the rule is a word
  have hends : ∀ rest : Text, EndsBefore rule rest := by
    rintro rest _ ⟨⟩
    trivial
  obtain ⟨rest, rfl, hspell⟩ := h
  obtain ⟨rest', heq, hspell'⟩ := h'
  obtain ⟨pieces, hcut, hkept⟩ := spelling_iff_cut.1 hspell
  obtain ⟨pieces', hcut', hkept'⟩ := spelling_iff_cut.1 hspell'
  obtain ⟨hlexeme, hsame, honly⟩ := hcut.only isChain_rule (hends rest) hcut' (hends rest') heq
  rw [hkept, hkept'] at hsame
  cases hsame
  exact ⟨hlexeme, rfl, honly⟩

/-- At every offset the readers take exactly what the grammar puts there.  There is at most one call
and at most one directive, and each is cut into the segments of its rule in one way only. -/
theorem readers_take_only_spelling (t : Text) (i : Nat) :
    (∀ lexeme call,
      (∃ rest, DeviceCall.read? (t.drop i) = some (call, rest) ∧ t.drop i = lexeme ++ rest) ↔
        DeviceCall.Heads (t.drop i) lexeme call) ∧
    (∀ lexeme path,
      (∃ rest, Directive.read? (t.drop i) = some (path, rest) ∧ t.drop i = lexeme ++ rest) ↔
        Directive.Heads (t.drop i) lexeme path) ∧
    (∀ lexeme call lexeme' call', DeviceCall.Heads (t.drop i) lexeme call →
      DeviceCall.Heads (t.drop i) lexeme' call' →
        lexeme = lexeme' ∧ call = call' ∧ ∃! pieces, Cut DeviceCall.rule lexeme pieces) ∧
    (∀ lexeme path lexeme' path', Directive.Heads (t.drop i) lexeme path →
      Directive.Heads (t.drop i) lexeme' path' →
        lexeme = lexeme' ∧ path = path' ∧ ∃! pieces, Cut Directive.rule lexeme pieces) :=
  ⟨fun _ _ => DeviceCall.exists_read?_iff_heads, fun _ _ => Directive.exists_read?_iff_heads,
    fun _ _ _ _ h h' => h.unique h', fun _ _ _ _ h h' => h.unique h'⟩

/-- A call with blanks behind it, and a directive whose path looks like a call.  The call does not
stand there without its last blank. -/
theorem readers_take_only_spelling_next_to_each_other :
    let t := "$$device (\n name:\"a\",width:1%,height:2)\t @import \"$$device(\" ;".toList
    let call : DeviceCall := ⟨"a".toList, "1%".toList, "2".toList⟩
    (DeviceCall.Heads t (t.take 41) call ∧
      Directive.Heads (t.drop 41) (t.drop 41) "$$device(".toList) ∧
    ¬ DeviceCall.Heads t (t.take 40) call := by
  intro t call
  obtain ⟨hcall, -, honly, -⟩ := readers_take_only_spelling t 0
  obtain ⟨-, hdirective, -, -⟩ := readers_take_only_spelling t 41
  have hfirst := (hcall (t.take 41) call).1 ⟨t.drop 41, by decide +kernel, by decide +kernel⟩
  refine ⟨⟨hfirst, (hdirective _ _).1 ⟨[], by decide +kernel, by decide +kernel⟩⟩, ?_⟩
  intro hshort
  exact absurd (honly _ _ _ _ hfirst hshort).1 (by decide +kernel)

end DeviceSheet
