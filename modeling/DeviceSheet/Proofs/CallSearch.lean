import DeviceSheet.Extraction
import DeviceSheet.Proofs.Tokenization

/-!
# Calls at every offset

A scan goes from left to right and looks at no text inside of a token.  So a
call that starts inside of a token would be lost.  There is none.  This module compares the scan
with a *search* that tries the reader of calls at every single offset.

A text is *barren* in front of another if no call starts in it (`Barren`).  The
tail of every token is barren in front of what follows the token.

* In a call the two dollars of the keyword are the only ones.
* In a literal no keyword starts.
* In a directive a keyword can start between the quotes.  The next quote would
  have to be the one before the name of the device, and it is the one that
  ends the path.  What follows it is a blank or `;`, and a name starts with
  neither.

`search_eq` says that the scan finds what the search finds, with offsets and lexemes.  The
calls of a sheet follow its characters (`calls_cons`), and putting a sheet between
others loses none of them (`calls_append_sublist`).
-/

namespace DeviceSheet

/-! ## The shape of a spelling -/

namespace DeviceCall

/-- The parts of the call are words over their classes of characters. -/
structure Valid (call : DeviceCall) : Prop where
  name_ne : call.name ≠ []
  name : call.name.Over isNameChar
  width_ne : call.width ≠ []
  width : call.width.Over isDimensionChar
  height_ne : call.height ≠ []
  height : call.height.Over isDimensionChar

instance decidableValid (call : DeviceCall) : Decidable call.Valid :=
  decidable_of_iff
    (call.name ≠ [] ∧ call.name.Over isNameChar ∧ call.width ≠ [] ∧
      call.width.Over isDimensionChar ∧ call.height ≠ [] ∧ call.height.Over isDimensionChar)
    ⟨fun ⟨h₁, h₂, h₃, h₄, h₅, h₆⟩ => ⟨h₁, h₂, h₃, h₄, h₅, h₆⟩,
      fun ⟨h₁, h₂, h₃, h₄, h₅, h₆⟩ => ⟨h₁, h₂, h₃, h₄, h₅, h₆⟩⟩

/-- What can be spelled is valid. -/
theorem Spelling.valid {lexeme : Text} {call : DeviceCall} (h : Spelling call lexeme) :
    call.Valid := by
  obtain ⟨-, -, -, name_ne, hname, -, -, width_ne, hwidth, -, -, height_ne, hheight, -⟩ := h
  exact ⟨name_ne, hname, width_ne, hwidth, height_ne, hheight⟩

/-- Behind its two dollars a spelling has no dollar. -/
theorem Spelling.dollars {lexeme : Text} {call : DeviceCall} (h : Spelling call lexeme) :
    ∃ tail, lexeme = '$' :: '$' :: 'd' :: tail ∧ '$' ∉ tail := by
  obtain ⟨hb₁, hb₂, hb₃, -, hname, hb₄, hb₅, -, hwidth, hb₆, hb₇, -, hheight, hb₈⟩ := h
  have hword : "$$device".toList = '$' :: '$' :: 'd' :: "evice".toList := by decide
  rw [hword]
  simp only [List.append_assoc, List.cons_append]
  refine ⟨_, rfl, ?_⟩
  simp only [List.mem_append, not_or]
  exact ⟨by decide, hb₁.notMem (by decide), by decide, hb₂.notMem (by decide), by decide,
    hb₃.notMem (by decide), by decide, hname.notMem (by decide), by decide,
    hb₄.notMem (by decide), by decide, hb₅.notMem (by decide), hwidth.notMem (by decide),
    by decide, hb₆.notMem (by decide), by decide, hb₇.notMem (by decide),
    hheight.notMem (by decide), by decide, hb₈.notMem (by decide)⟩

/-- The first quote of a spelling stands in front of the name. -/
theorem Spelling.quote {lexeme : Text} {call : DeviceCall} (h : Spelling call lexeme) :
    ∃ front back, lexeme = front ++ '\x22' :: (call.name ++ back) ∧ front.Over isPathChar ∧
      call.name ≠ [] ∧ call.name.Over isNameChar := by
  obtain ⟨hb₁, hb₂, hb₃, name_ne, hname, -, -, -, -, -, -, -, -, -⟩ := h
  rename_i b₁ b₂ b₃ _ _ _ _ _ _ _ _
  refine ⟨"$$device".toList ++ b₁ ++ "(".toList ++ b₂ ++ "name:".toList ++ b₃, ?back, ?cut, ?chars,
    name_ne, hname⟩
  case cut =>
    simp only [List.append_assoc]
    rfl
  case chars =>
    simp only [Text.over_append]
    exact ⟨⟨⟨⟨⟨by decide, hb₁.mono isPathChar_of_isBlank⟩, by decide⟩,
      hb₂.mono isPathChar_of_isBlank⟩, by decide⟩,
      hb₃.mono isPathChar_of_isBlank⟩

/-- More blanks may follow a spelling. -/
theorem Spelling.append_blanks {lexeme b : Text} {call : DeviceCall} (h : Spelling call lexeme)
    (hb : b.Over isBlank) : Spelling call (lexeme ++ b) := by
  obtain ⟨hb₁, hb₂, hb₃, name_ne, hname, hb₄, hb₅, width_ne, hwidth, hb₆, hb₇, height_ne, hheight,
    hb₈⟩ := h
  rw [List.append_assoc _ _ b]
  exact .intro hb₁ hb₂ hb₃ name_ne hname hb₄ hb₅ width_ne hwidth hb₆ hb₇ height_ne hheight
    (Text.over_append.2 ⟨hb₈, hb⟩)

/-- A call is read whatever stands behind it.  Only the blanks behind it may become more. -/
theorem read?_append {t r : Text} {call : DeviceCall} (h : read? t = some (call, r)) (u : Text) :
    ∃ r', read? (t ++ u) = some (call, r') := by
  obtain ⟨lexeme, rfl, hspell, hr⟩ := read?_eq_some_iff.1 h
  cases r with
  | cons c r =>
    refine ⟨c :: r ++ u, ?_⟩
    rw [List.append_assoc]
    exact read?_of_spelling hspell (Text.stops_append (by simp [hr c rfl]) _)
  | nil =>
    obtain ⟨b, r', rfl, hb, hr', _⟩ := u.exists_blanks
    refine ⟨r', ?_⟩
    rw [List.append_nil, ← List.append_assoc]
    exact read?_of_spelling (hspell.append_blanks hb) hr'

/-- A call is read only off a text that starts with two dollars. -/
theorem read?_eq_none_of_dollars {t : Text} (h : ∀ u, t ≠ '$' :: '$' :: u) : read? t = none := by
  rw [Option.eq_none_iff_forall_ne_some]
  rintro ⟨call, r⟩ hread
  obtain ⟨u, hu, _⟩ := append_of_read? hread
  exact h _ hu

/-- A call is not read where the next quote has no name behind it. -/
theorem read?_quoted_eq_none {front back : Text} (hfront : front.Over isPathChar)
    (hback : back.Stops isNameChar) : read? (front ++ '\x22' :: back) = none := by
  rw [Option.eq_none_iff_forall_ne_some]
  rintro ⟨call, r⟩ h
  obtain ⟨lexeme, heq, hspell, _⟩ := read?_eq_some_iff.1 h
  obtain ⟨front', back', rfl, hfront', name_ne, hname⟩ := hspell.quote
  have hquote : ∀ t, Text.Stops isPathChar ('\x22' :: t) :=
    fun t => @Text.stops_append isPathChar ['\x22'] (by decide) t
  rw [List.append_assoc, List.cons_append] at heq
  -- both sides are cut at their first quote
  obtain ⟨-, hcut⟩ := hfront.append_inj (hquote _) hfront' (hquote _) heq
  rw [(List.cons.inj hcut).2, List.append_assoc] at hback
  cases hcall : call.name with
  | nil => exact name_ne hcall
  | cons c name =>
    rw [hcall] at hback hname
    have hno := hback c rfl
    rw [hname c (by simp)] at hno
    cases hno

end DeviceCall

/-! ## Barren texts -/

/-- No call starts at any offset of the first text, when the second follows it. -/
def Barren : (t rest : Text) → Prop
  | [], _ => True
  | c :: t, rest => DeviceCall.read? (c :: t ++ rest) = none ∧ Barren t rest

namespace Barren

theorem append {t u rest : Text} (ht : Barren t (u ++ rest)) (hu : Barren u rest) :
    Barren (t ++ u) rest := by
  induction t with
  | nil => exact hu
  | cons c t ih =>
    obtain ⟨hhead, htail⟩ := ht
    refine ⟨?_, ih htail⟩
    rw [← hhead, ← List.append_assoc]
    rfl

theorem tail {t rest : Text} (h : Barren t rest) : Barren t.tail rest := by
  cases t with
  | nil => trivial
  | cons c t => exact h.2

/-- A text without dollars is barren in front of every other. -/
theorem of_notMem {t : Text} (h : '$' ∉ t) (rest : Text) : Barren t rest := by
  induction t with
  | nil => trivial
  | cons c t ih =>
    rw [List.mem_cons, not_or] at h
    refine ⟨DeviceCall.read?_eq_none_of_dollars fun u hu => ?_, ih h.2⟩
    exact h.1 (List.cons.inj hu).1.symm

/-- A text without quotes is barren in front of a quote that no name follows. -/
theorem quoted {t back : Text} (ht : t.Over isPathChar) (hback : back.Stops isNameChar) :
    Barren t ('\x22' :: back) := by
  induction t with
  | nil => trivial
  | cons c t ih =>
    have htail : Text.Over isPathChar t := fun d hd => ht d (by simp [hd])
    exact ⟨DeviceCall.read?_quoted_eq_none ht hback, ih htail⟩

/-- A run up to the next keyword is barren. -/
theorem of_literalRun {t rest : Text}
    (h : ∀ i < t.length, ¬ StartsKeyword ((t ++ rest).drop i)) : Barren t rest := by
  induction t with
  | nil => trivial
  | cons c t ih =>
    refine ⟨(read?_eq_none_of_not_startsKeyword (h 0 (by simp))).1, ih ?_⟩
    intro i hi
    exact h (i + 1) (by simpa using hi)

/-- The tail of a spelled call is barren. -/
theorem of_call {lexeme : Text} {call : DeviceCall} (h : DeviceCall.Spelling call lexeme)
    (rest : Text) : Barren lexeme.tail rest := by
  obtain ⟨tail, rfl, htail⟩ := h.dollars
  refine ⟨DeviceCall.read?_eq_none_of_dollars ?_, of_notMem ?_ rest⟩
  · intro u hu
    exact absurd (List.cons.inj (List.cons.inj hu).2).1 (by decide)
  · simp [htail]

/-- A spelled directive is barren.  The quote behind its path is followed by a blank or the
semicolon. -/
theorem of_directive {lexeme path : Text} (h : Directive.Spelling path lexeme) (rest : Text) :
    Barren lexeme rest := by
  obtain ⟨hb₁, -, hpath, hb₂⟩ := h
  rename_i b₁ b₂
  have hfront : '$' ∉ "@import".toList ++ b₁ ++ "\"".toList := by
    simp only [List.mem_append, not_or]
    exact ⟨⟨by decide, hb₁.notMem (by decide)⟩, by decide⟩
  have hback : '$' ∉ "\"".toList ++ b₂ ++ ";".toList := by
    simp only [List.mem_append, not_or]
    exact ⟨⟨by decide, hb₂.notMem (by decide)⟩, by decide⟩
  have hstop : Text.Stops isNameChar (b₂ ++ (";".toList ++ rest)) :=
    hb₂.stops isNameChar_of_isBlank fun _ => Text.stops_append (by decide) _
  have hpath' : Barren path ("\"".toList ++ b₂ ++ ";".toList ++ rest) := by
    simp only [List.append_assoc]
    exact quoted hpath hstop
  rw [List.append_assoc _ b₂, List.append_assoc _ "\"".toList, ← List.append_assoc "\"".toList]
  exact ((of_notMem hfront _).append hpath').append (of_notMem hback rest)

/-- The tail of a token is barren in front of what follows the token. -/
theorem of_fits {token : Token} {rest : Text} (h : token.Fits (token.lexeme ++ rest)) :
    Barren token.lexeme.tail rest := by
  cases token with
  | device lexeme call =>
    obtain ⟨_, _, hspell, _⟩ := h
    exact of_call hspell rest
  | directive lexeme path =>
    obtain ⟨_, _, hspell⟩ := h
    exact (of_directive hspell rest).tail
  | literal lexeme =>
    rcases h with ⟨rest', heq, hinside, _⟩ | ⟨⟨c, rest', rfl, _⟩, _⟩
    · exact (of_literalRun hinside).tail
    · trivial

end Barren

/-! ## The search -/

/-- A match of the rule for calls: where it starts, the text it takes and the call it spells. -/
structure CallMatch where
  /-- The offset of the first character. -/
  start : Nat
  /-- The text of the match. -/
  lexeme : Text
  /-- The call. -/
  call : DeviceCall
deriving DecidableEq

namespace CallMatch

/-- The offset behind the last character. -/
def stop (m : CallMatch) : Nat := m.start + m.lexeme.length

/-- The rule for calls matches the text in this way. -/
def In (m : CallMatch) (t : Text) : Prop := DeviceCall.Heads (t.drop m.start) m.lexeme m.call

/-- The match of a token at an offset, if it is a call. -/
def ofPlaced? : Nat × Token → Option CallMatch
  | (i, .device lexeme call) => some ⟨i, lexeme, call⟩
  | _ => none

/-- The match at the front of a text, which stands at the given offset. -/
def front? (start : Nat) (t : Text) : Option CallMatch :=
  (DeviceCall.read? t).map fun read => ⟨start, t.upTo read.2, read.1⟩

/-- The matches at every single offset of a text, which stands at the given offset itself. -/
def search (start : Nat) : Text → List CallMatch
  | [] => []
  | c :: t => (front? start (c :: t)).toList ++ search (start + 1) t

theorem front?_eq_some {start : Nat} {t : Text} {m : CallMatch} :
    front? start t = some m ↔ m.start = start ∧ DeviceCall.Heads t m.lexeme m.call := by
  obtain ⟨i, lexeme, call⟩ := m
  simp only [front?, Option.map_eq_some_iff, Prod.exists, CallMatch.mk.injEq]
  constructor
  · rintro ⟨call, rest, hread, rfl, rfl, rfl⟩
    exact ⟨rfl, DeviceCall.heads_of_read? hread⟩
  · rintro ⟨rfl, rest, rfl, hspell, hrest⟩
    exact ⟨call, rest, DeviceCall.read?_of_spelling hspell hrest, rfl,
      Text.upTo_append_right lexeme rest, rfl⟩

/-- The search finds exactly the matches. -/
theorem mem_search {start : Nat} {t : Text} {m : CallMatch} :
    m ∈ search start t ↔
      ∃ i, m.start = start + i ∧ DeviceCall.Heads (t.drop i) m.lexeme m.call := by
  induction t generalizing start with
  | nil =>
    simp only [search, List.not_mem_nil, List.drop_nil, false_iff, not_exists, not_and]
    exact fun _ _ => DeviceCall.read?_eq_none_iff.1 rfl _ _
  | cons c t ih =>
    rw [search, List.mem_append, Option.mem_toList, front?_eq_some, ih]
    constructor
    · rintro (⟨hstart, hheads⟩ | ⟨i, hstart, hheads⟩)
      · exact ⟨0, hstart, hheads⟩
      · exact ⟨i + 1, by omega, hheads⟩
    · rintro ⟨i, hstart, hheads⟩
      cases i with
      | zero => exact Or.inl ⟨hstart, hheads⟩
      | succ i => exact Or.inr ⟨i, by omega, hheads⟩

/-- The search finds nothing in a barren text. -/
theorem search_append {t rest : Text} (h : Barren t rest) (start : Nat) :
    search start (t ++ rest) = search (start + t.length) rest := by
  induction t generalizing start with
  | nil => rfl
  | cons c t ih =>
    obtain ⟨hhead, htail⟩ := h
    have hnone : front? start (c :: (t ++ rest)) = none := by
      rw [front?, ← List.cons_append, hhead, Option.map_none]
    rw [List.cons_append, search, hnone, ih htail, List.length_cons]
    rw [show start + 1 + t.length = start + (t.length + 1) by omega]
    rfl

/-- At the front of a text the search finds its first token, if that is a call. -/
theorem front?_of_fits {token : Token} {rest : Text} (hne : token.lexeme ≠ [])
    (h : token.Fits (token.lexeme ++ rest)) (start : Nat) :
    front? start (token.lexeme ++ rest) = ofPlaced? (start, token) := by
  cases token with
  | device lexeme call => exact front?_eq_some.2 ⟨rfl, h⟩
  | directive lexeme path =>
    rw [front?, DeviceCall.read?_eq_none_of_directive h]
    rfl
  | literal lexeme =>
    have hnone : DeviceCall.read? (lexeme ++ rest) = none := by
      rcases h with ⟨rest', heq, hinside, _⟩ | ⟨_, _, hcall, _⟩
      · exact (read?_eq_none_of_not_startsKeyword (hinside 0 (List.length_pos_iff.2 hne))).1
      · exact DeviceCall.read?_eq_none_iff.2 hcall
    rw [front?, Token.lexeme, hnone]
    rfl

/-- The calls of a scan, with their offsets, are what the search finds. -/
theorem search_eq (t : Text) (start : Nat) :
    (placed start (scan t)).filterMap ofPlaced? = search start t := by
  induction t using scan_induction generalizing start with
  | nil => simp [search]
  | step token rest hne hnext ih =>
    have hfits := Token.fits_of_next? hnext
    have hfront := front?_of_fits hne hfits start
    have hbarren := Barren.of_fits hfits
    obtain ⟨c, u, hcu⟩ := List.exists_cons_of_ne_nil hne
    have hlen : start + token.lexeme.length = start + 1 + u.length := by
      rw [hcu, List.length_cons]
      omega
    rw [scan_of_next? hnext, placed_cons, List.filterMap_cons, ih, hlen]
    rw [hcu, List.tail_cons] at hbarren
    rw [hcu, List.cons_append] at hfront ⊢
    rw [search, hfront, search_append hbarren]
    cases ofPlaced? (start, token) <;> rfl

theorem map_call_ofPlaced? (start : Nat) (tokens : List Token) :
    ((placed start tokens).filterMap ofPlaced?).map call = tokens.filterMap Token.call? := by
  induction tokens generalizing start with
  | nil => rfl
  | cons token tokens ih =>
    rw [placed_cons, List.filterMap_cons, List.filterMap_cons,
      ← ih (start + token.lexeme.length)]
    cases token <;> rfl

end CallMatch

/-! ## The calls of a sheet -/

theorem calls_eq_search (start : Nat) (t : Text) :
    calls t = (CallMatch.search start t).map CallMatch.call := by
  rw [← CallMatch.search_eq, CallMatch.map_call_ofPlaced?, calls]

@[simp] theorem calls_nil : calls [] = [] := by
  simp [calls]

/-- The calls of a sheet, character by character. -/
theorem calls_cons (c : Char) (t : Text) :
    calls (c :: t) = ((DeviceCall.read? (c :: t)).map Prod.fst).toList ++ calls t := by
  rw [calls_eq_search 0, calls_eq_search 1 t, CallMatch.search, List.map_append,
    CallMatch.front?]
  cases DeviceCall.read? (c :: t) <;> rfl

/-- The calls of a sheet are valid. -/
theorem valid_of_mem_calls {t : Text} {call : DeviceCall} (h : call ∈ calls t) : call.Valid := by
  rw [calls_eq_search 0] at h
  obtain ⟨m, hm, rfl⟩ := List.mem_map.1 h
  obtain ⟨_, _, _, _, hspell, _⟩ := CallMatch.mem_search.1 hm
  exact hspell.valid

/-- Two sheets in a row have at least the calls of both, in order. -/
theorem calls_append_sublist (t u : Text) : (calls t ++ calls u).Sublist (calls (t ++ u)) := by
  induction t with
  | nil => simp
  | cons c t ih =>
    rw [List.cons_append, calls_cons, calls_cons, List.append_assoc]
    refine List.Sublist.append ?_ ih
    cases hread : DeviceCall.read? (c :: t) with
    | none => exact List.nil_sublist _
    | some read =>
      obtain ⟨call, r⟩ := read
      obtain ⟨r', hread'⟩ := DeviceCall.read?_append hread u
      rw [← List.cons_append, hread']
      exact List.Sublist.refl _

/-- No call starts in a barren text. -/
theorem Barren.calls_append {t rest : Text} (h : Barren t rest) :
    calls (t ++ rest) = calls rest := by
  induction t with
  | nil => rfl
  | cons c t ih =>
    obtain ⟨hhead, htail⟩ := h
    rw [List.cons_append] at hhead ⊢
    rw [calls_cons, hhead, ih htail]
    rfl

/-- The text of a call has that call and no other. -/
theorem calls_of_spelling {lexeme : Text} {call : DeviceCall}
    (h : DeviceCall.Spelling call lexeme) : calls lexeme = [call] := by
  have hread := DeviceCall.read?_self_of_spelling h
  have htail := (Barren.of_call h []).calls_append
  rw [List.append_nil, calls_nil] at htail
  cases lexeme with
  | nil => cases hread
  | cons c tail =>
    rw [List.tail_cons] at htail
    rw [calls_cons, hread, htail]
    rfl

end DeviceSheet
