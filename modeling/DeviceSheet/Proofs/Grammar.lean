import DeviceSheet.Token.Scan

/-!
# The grammar of calls and directives

A *spelling* of a call or a directive is a text that its rule describes.  The rule
leaves the blanks between the parts open and says nothing about how a text is
read.  The readers of `DeviceSheet.Token.Read` take every part as far as it goes and
never go back.

* `DeviceCall.read?_eq_some_iff`: the reader takes exactly the spellings that stand at the
  front of a text and are not followed by a blank.
* `Directive.read?_eq_some_iff`: the same for directives, whatever follows.

So a text starts with at most one spelling that can be read there, and nothing is missed by
reading greedily.

The content is in the places where two neighbouring parts meet.  The part that
follows a run starts with a character that the run cannot hold, so that the longest
run is the only one (`Text.Stops`).
-/

namespace DeviceSheet

namespace Text

/-! ## Runs -/

/-- Every character of the text belongs to the class. -/
def Over (p : Char → Bool) (t : Text) : Prop := ∀ c ∈ t, p c = true

instance decidableOver (p : Char → Bool) (t : Text) : Decidable (Over p t) :=
  decidable_of_iff (t.all p = true) List.all_eq_true

theorem Over.notMem {p : Char → Bool} {t : Text} {c : Char} (h : t.Over p) (hc : p c = false) :
    c ∉ t := by
  intro hmem
  rw [h c hmem] at hc
  cases hc

theorem Over.mono {p q : Char → Bool} {t : Text} (h : t.Over p)
    (hpq : ∀ c, p c = true → q c = true) : t.Over q :=
  fun c hc => hpq c (h c hc)

theorem over_append {p : Char → Bool} {t u : Text} :
    (t ++ u).Over p ↔ t.Over p ∧ u.Over p := by
  simp only [Over, List.mem_append, or_imp, forall_and]

/-- The text ends a run of the class: it is empty or starts with a character outside of the
class. -/
def Stops (p : Char → Bool) (t : Text) : Prop := ∀ c, t.head? = some c → p c = false

theorem stops_nil (p : Char → Bool) : Stops p [] := by
  intro c hc
  cases hc

/-- A text ends a run if its first part starts with a character outside of the class. -/
theorem stops_append {p : Char → Bool} {word : Text} (h : word.head?.map p = some false)
    (t : Text) : Stops p (word ++ t) := by
  intro c hc
  cases word with
  | nil => cases h
  | cons d word =>
    cases hc
    exact Option.some.inj h

/-- Two classes have no character in common, said from the other one. -/
theorem apart_symm {p q : Char → Bool} (h : ∀ c, p c = true → q c = false) (c : Char)
    (hc : q c = true) : p c = false := by
  cases hp : p c with
  | false => rfl
  | true => exact hc.symm.trans (h c hp)

/-- A text over one class ends a run of a class that has no character in common with it.  If it is
empty, what follows has to end the run. -/
theorem Over.stops {p q : Char → Bool} {w r : Text} (hw : w.Over p)
    (hpq : ∀ c, p c = true → q c = false) (hr : w = [] → r.Stops q) : Stops q (w ++ r) := by
  cases w with
  | nil => exact hr rfl
  | cons c w => exact stops_append (by simp [hpq c (hw c (by simp))]) r

theorem over_takeWhile (p : Char → Bool) (t : Text) : Over p (t.takeWhile p) :=
  List.all_eq_true.1 List.all_takeWhile

theorem stops_dropWhile (p : Char → Bool) (t : Text) : Stops p (t.dropWhile p) := by
  intro c hc
  have h := List.head?_dropWhile_not p t
  rw [hc] at h
  exact h

theorem takeWhile_append {p : Char → Bool} {w r : Text} (hw : w.Over p) (hr : r.Stops p) :
    (w ++ r).takeWhile p = w := by
  rw [List.takeWhile_append_of_pos hw]
  cases r with
  | nil => simp
  | cons c r => simp [hr c rfl]

theorem dropWhile_append {p : Char → Bool} {w r : Text} (hw : w.Over p) (hr : r.Stops p) :
    (w ++ r).dropWhile p = r := by
  rw [List.dropWhile_append_of_pos hw]
  cases r with
  | nil => rfl
  | cons c r => simp [hr c rfl]

/-- A text has one cut between a word over a class and a text that ends the run. -/
theorem Over.append_inj {p : Char → Bool} {w w' r r' : Text} (hw : w.Over p) (hr : r.Stops p)
    (hw' : w'.Over p) (hr' : r'.Stops p) (h : w ++ r = w' ++ r') : w = w' ∧ r = r' := by
  have htake := congrArg (List.takeWhile p) h
  have hdrop := congrArg (List.dropWhile p) h
  rw [takeWhile_append hw hr, takeWhile_append hw' hr'] at htake
  rw [dropWhile_append hw hr, dropWhile_append hw' hr'] at hdrop
  exact ⟨htake, hdrop⟩

/-- A run is read exactly off the texts that start with a word and go on outside of the
class. -/
theorem run?_eq_some {p : Char → Bool} {t w r : Text} :
    t.run? p = some (w, r) ↔ t = w ++ r ∧ w ≠ [] ∧ w.Over p ∧ r.Stops p := by
  constructor
  · intro h
    unfold run? at h
    split at h
    · cases h
    · next c cs hw =>
      cases h
      refine ⟨?_, by simp, ?_, stops_dropWhile p t⟩
      · rw [← hw, List.takeWhile_append_dropWhile]
      · rw [← hw]
        exact over_takeWhile p t
  · rintro ⟨rfl, hne, hw, hr⟩
    rw [run?, takeWhile_append hw hr, dropWhile_append hw hr]
    cases w with
    | nil => exact absurd rfl hne
    | cons c w => rfl

/-! ## Blanks before a part -/

/-- A text is blanks and what is left without them. -/
theorem exists_blanks (t : Text) :
    ∃ b r : Text, t = b ++ r ∧ b.Over isBlank ∧ r.Stops isBlank ∧ t.skipBlanks = r :=
  ⟨t.takeWhile isBlank, t.skipBlanks, List.takeWhile_append_dropWhile.symm,
    over_takeWhile isBlank t, stops_dropWhile isBlank t, rfl⟩

theorem skipBlanks_append {b r : Text} (hb : b.Over isBlank) (hr : r.Stops isBlank) :
    (b ++ r).skipBlanks = r :=
  dropWhile_append hb hr

/-- A word after blanks.  The word starts with no blank itself, so the blanks are told from
it. -/
theorem skipBlanks_after? {t word r : Text} (hword : word.head?.map isBlank = some false) :
    t.skipBlanks.after? word = some r ↔
      ∃ b : Text, b.Over isBlank ∧ t = b ++ (word ++ r) := by
  rw [after?_eq_some]
  constructor
  · intro h
    obtain ⟨b, r', rfl, hb, _, hr'⟩ := t.exists_blanks
    exact ⟨b, hb, by rw [← hr', h]⟩
  · rintro ⟨b, hb, rfl⟩
    exact skipBlanks_append hb (stops_append hword r)

/-- A run after blanks.  No character of the run is a blank. -/
theorem skipBlanks_run? {t w r : Text} {p : Char → Bool}
    (hp : ∀ c, isBlank c = true → p c = false) :
    t.skipBlanks.run? p = some (w, r) ↔
      ∃ b : Text, b.Over isBlank ∧ t = b ++ (w ++ r) ∧ w ≠ [] ∧ w.Over p ∧ r.Stops p := by
  rw [run?_eq_some]
  constructor
  · rintro ⟨h, hne, hw, hr⟩
    obtain ⟨b, r', rfl, hb, _, hr'⟩ := t.exists_blanks
    exact ⟨b, hb, by rw [← hr', h], hne, hw, hr⟩
  · rintro ⟨b, hb, rfl, hne, hw, hr⟩
    exact ⟨skipBlanks_append hb (hw.stops (apart_symm hp) fun h => absurd h hne), hne, hw, hr⟩

/-- What was read is the text in front of what is left. -/
theorem upTo_append_right (front rest : Text) : (front ++ rest).upTo rest = front := by
  simp [upTo]

end Text

/-! ## Character classes that do not meet -/

/-- What holds of the five blanks holds of every blank. -/
theorem forall_isBlank {P : Char → Prop} (h : P ' ' ∧ P '\t' ∧ P '\n' ∧ P '\r' ∧ P '\x0c')
    (c : Char) (hc : isBlank c = true) : P c := by
  obtain ⟨hspace, htab, hline, hreturn, hfeed⟩ := h
  simp only [isBlank, Bool.or_eq_true, decide_eq_true_eq] at hc
  rcases hc with (((rfl | rfl) | rfl) | rfl) | rfl
  · exact hspace
  · exact htab
  · exact hline
  · exact hreturn
  · exact hfeed

theorem isNameChar_of_isBlank : ∀ c, isBlank c = true → isNameChar c = false :=
  forall_isBlank (by decide)

theorem isDimensionChar_of_isBlank : ∀ c, isBlank c = true → isDimensionChar c = false :=
  forall_isBlank (by decide)

theorem isPathChar_of_isBlank : ∀ c, isBlank c = true → isPathChar c = true :=
  forall_isBlank (by decide)

/-! ## Device calls -/

/-- A text spells a call if it is made of the parts of the call in order, with blanks between
some of them. -/
inductive DeviceCall.Spelling : DeviceCall → Text → Prop
  | intro {b₁ b₂ b₃ name b₄ b₅ width b₆ b₇ height b₈ : Text}
      (hb₁ : b₁.Over isBlank) (hb₂ : b₂.Over isBlank) (hb₃ : b₃.Over isBlank)
      (name_ne : name ≠ []) (hname : name.Over isNameChar)
      (hb₄ : b₄.Over isBlank) (hb₅ : b₅.Over isBlank)
      (width_ne : width ≠ []) (hwidth : width.Over isDimensionChar)
      (hb₆ : b₆.Over isBlank) (hb₇ : b₇.Over isBlank)
      (height_ne : height ≠ []) (hheight : height.Over isDimensionChar)
      (hb₈ : b₈.Over isBlank) :
      Spelling ⟨name, width, height⟩
        ("$$device".toList ++ b₁ ++ "(".toList ++ b₂ ++
          "name:".toList ++ b₃ ++ "\"".toList ++ name ++ "\",".toList ++ b₄ ++
          "width:".toList ++ b₅ ++ width ++ ",".toList ++ b₆ ++
          "height:".toList ++ b₇ ++ height ++ ")".toList ++ b₈)

/-- The text starts with a spelling of the call that no further blank belongs to. -/
def DeviceCall.Heads (t lexeme : Text) (call : DeviceCall) : Prop :=
  ∃ rest, t = lexeme ++ rest ∧ Spelling call lexeme ∧ rest.Stops isBlank

/-- What the reader takes is a spelling, and it leaves no blank behind. -/
theorem DeviceCall.spelling_of_read? {t rest : Text} {call : DeviceCall}
    (h : read? t = some (call, rest)) :
    ∃ lexeme, t = lexeme ++ rest ∧ Spelling call lexeme ∧ rest.Stops isBlank := by
  simp only [read?, Option.bind_eq_bind, Option.bind_eq_some_iff, Prod.exists, Option.pure_def,
    Option.some.injEq, Prod.mk.injEq] at h
  obtain ⟨t₁, h₁, t₂, h₂, t₃, h₃, t₄, h₄, name, t₅, h₅, t₆, h₆, t₇, h₇, width, t₈, h₈, t₉, h₉,
    t₁₀, h₁₀, height, t₁₁, h₁₁, t₁₂, h₁₂, rfl, rfl⟩ := h
  have e₁ := Text.after?_eq_some.1 h₁
  obtain ⟨b₁, hb₁, e₂⟩ := (Text.skipBlanks_after? (by decide)).1 h₂
  obtain ⟨b₂, hb₂, e₃⟩ := (Text.skipBlanks_after? (by decide)).1 h₃
  obtain ⟨b₃, hb₃, e₄⟩ := (Text.skipBlanks_after? (by decide)).1 h₄
  obtain ⟨e₅, name_ne, hname, _⟩ := Text.run?_eq_some.1 h₅
  have e₆ := Text.after?_eq_some.1 h₆
  obtain ⟨b₄, hb₄, e₇⟩ := (Text.skipBlanks_after? (by decide)).1 h₇
  obtain ⟨b₅, hb₅, e₈, width_ne, hwidth, _⟩ :=
    (Text.skipBlanks_run? isDimensionChar_of_isBlank).1 h₈
  have e₉ := Text.after?_eq_some.1 h₉
  obtain ⟨b₆, hb₆, e₁₀⟩ := (Text.skipBlanks_after? (by decide)).1 h₁₀
  obtain ⟨b₇, hb₇, e₁₁, height_ne, hheight, _⟩ :=
    (Text.skipBlanks_run? isDimensionChar_of_isBlank).1 h₁₁
  have e₁₂ := Text.after?_eq_some.1 h₁₂
  obtain ⟨b₈, r, e₁₃, hb₈, hrest, e₁₄⟩ := t₁₂.exists_blanks
  rw [e₁₄]
  refine ⟨_, ?_, .intro hb₁ hb₂ hb₃ name_ne hname hb₄ hb₅ width_ne hwidth hb₆ hb₇ height_ne
    hheight hb₈, hrest⟩
  rw [e₁, e₂, e₃, e₄, e₅, e₆, e₇, e₈, e₉, e₁₀, e₁₁, e₁₂, e₁₃]
  simp only [List.append_assoc]
  rfl

/-- A spelling at the front of a text is read, if no further blank belongs to it. -/
theorem DeviceCall.read?_of_spelling {lexeme rest : Text} {call : DeviceCall}
    (h : Spelling call lexeme) (hrest : rest.Stops isBlank) :
    read? (lexeme ++ rest) = some (call, rest) := by
  obtain ⟨hb₁, hb₂, hb₃, name_ne, hname, hb₄, hb₅, width_ne, hwidth, hb₆, hb₇, height_ne, hheight,
    hb₈⟩ := h
  simp only [read?, Option.bind_eq_bind, Option.bind_eq_some_iff, Prod.exists, Option.pure_def,
    Option.some.injEq, Prod.mk.injEq]
  refine ⟨_, Text.after?_eq_some.2 ?_, _, (Text.skipBlanks_after? (by decide)).2 ⟨_, hb₁, rfl⟩,
    _, (Text.skipBlanks_after? (by decide)).2 ⟨_, hb₂, rfl⟩,
    _, (Text.skipBlanks_after? (by decide)).2 ⟨_, hb₃, rfl⟩,
    _, _, Text.run?_eq_some.2 ⟨rfl, name_ne, hname, ?_⟩, _, Text.after?_eq_some.2 rfl,
    _, (Text.skipBlanks_after? (by decide)).2 ⟨_, hb₄, rfl⟩,
    _, _, (Text.skipBlanks_run? isDimensionChar_of_isBlank).2
      ⟨_, hb₅, rfl, width_ne, hwidth, ?_⟩, _, Text.after?_eq_some.2 rfl,
    _, (Text.skipBlanks_after? (by decide)).2 ⟨_, hb₆, rfl⟩,
    _, _, (Text.skipBlanks_run? isDimensionChar_of_isBlank).2
      ⟨_, hb₇, rfl, height_ne, hheight, ?_⟩, _, Text.after?_eq_some.2 rfl,
    rfl, Text.skipBlanks_append hb₈ hrest⟩
  · simp only [List.append_assoc]
    rfl
  · exact Text.stops_append (by decide) _
  · exact Text.stops_append (by decide) _
  · exact Text.stops_append (by decide) _

/-- A spelling on its own is read. -/
theorem DeviceCall.read?_self_of_spelling {lexeme : Text} {call : DeviceCall}
    (h : Spelling call lexeme) : read? lexeme = some (call, []) := by
  have hread := read?_of_spelling h (Text.stops_nil isBlank)
  rw [List.append_nil] at hread
  exact hread

/-- The reader of calls takes exactly the spellings that no further blank belongs to. -/
theorem DeviceCall.read?_eq_some_iff {t rest : Text} {call : DeviceCall} :
    read? t = some (call, rest) ↔
      ∃ lexeme, t = lexeme ++ rest ∧ Spelling call lexeme ∧ rest.Stops isBlank := by
  constructor
  · exact spelling_of_read?
  · rintro ⟨lexeme, rfl, h, hrest⟩
    exact read?_of_spelling h hrest

theorem DeviceCall.heads_of_read? {t rest : Text} {call : DeviceCall}
    (h : read? t = some (call, rest)) : Heads t (t.upTo rest) call := by
  obtain ⟨lexeme, rfl, hspell, hrest⟩ := read?_eq_some_iff.1 h
  rw [Text.upTo_append_right]
  exact ⟨rest, rfl, hspell, hrest⟩

/-- No call stands at the front of a text that cannot be read as a call. -/
theorem DeviceCall.read?_eq_none_iff {t : Text} :
    read? t = none ↔ ∀ lexeme call, ¬ Heads t lexeme call := by
  constructor
  · rintro h lexeme call ⟨rest, rfl, hspell, hrest⟩
    rw [read?_of_spelling hspell hrest] at h
    cases h
  · intro h
    rw [Option.eq_none_iff_forall_ne_some]
    rintro ⟨call, rest⟩ hread
    exact h _ call (heads_of_read? hread)

/-! ## Import directives -/

/-- A text spells a directive for a path if it is made of the parts of the directive in order, with
blanks around the quoted path. -/
inductive Directive.Spelling : (path lexeme : Text) → Prop
  | intro {b₁ path b₂ : Text} (hb₁ : b₁.Over isBlank) (path_ne : path ≠ [])
      (hpath : path.Over isPathChar) (hb₂ : b₂.Over isBlank) :
      Spelling path
        ("@import".toList ++ b₁ ++ "\"".toList ++ path ++ "\"".toList ++ b₂ ++ ";".toList)

/-- The text starts with a spelling of a directive for the path. -/
def Directive.Heads (t lexeme path : Text) : Prop :=
  ∃ rest, t = lexeme ++ rest ∧ Spelling path lexeme

/-- What the reader takes is a spelling. -/
theorem Directive.spelling_of_read? {t rest path : Text} (h : read? t = some (path, rest)) :
    ∃ lexeme, t = lexeme ++ rest ∧ Spelling path lexeme := by
  simp only [read?, Option.bind_eq_bind, Option.bind_eq_some_iff, Prod.exists, Option.pure_def,
    Option.some.injEq, Prod.mk.injEq] at h
  obtain ⟨t₁, h₁, t₂, h₂, path, t₃, h₃, t₄, h₄, t₅, h₅, rfl, rfl⟩ := h
  have e₁ := Text.after?_eq_some.1 h₁
  obtain ⟨b₁, hb₁, e₂⟩ := (Text.skipBlanks_after? (by decide)).1 h₂
  obtain ⟨e₃, path_ne, hpath, _⟩ := Text.run?_eq_some.1 h₃
  have e₄ := Text.after?_eq_some.1 h₄
  obtain ⟨b₂, hb₂, e₅⟩ := (Text.skipBlanks_after? (by decide)).1 h₅
  refine ⟨_, ?_, .intro hb₁ path_ne hpath hb₂⟩
  rw [e₁, e₂, e₃, e₄, e₅]
  simp only [List.append_assoc]
  rfl

/-- A spelling at the front of a text is read. -/
theorem Directive.read?_of_spelling {lexeme path : Text} (h : Spelling path lexeme) (rest : Text) :
    read? (lexeme ++ rest) = some (path, rest) := by
  obtain ⟨hb₁, path_ne, hpath, hb₂⟩ := h
  simp only [read?, Option.bind_eq_bind, Option.bind_eq_some_iff, Prod.exists, Option.pure_def,
    Option.some.injEq, Prod.mk.injEq]
  refine ⟨_, Text.after?_eq_some.2 ?_, _, (Text.skipBlanks_after? (by decide)).2 ⟨_, hb₁, rfl⟩,
    _, _, Text.run?_eq_some.2 ⟨rfl, path_ne, hpath, ?_⟩, _, Text.after?_eq_some.2 rfl,
    _, (Text.skipBlanks_after? (by decide)).2 ⟨_, hb₂, rfl⟩, rfl, rfl⟩
  · simp only [List.append_assoc]
    rfl
  · exact Text.stops_append (by decide) _

/-- The reader of directives takes exactly the spellings. -/
theorem Directive.read?_eq_some_iff {t rest path : Text} :
    read? t = some (path, rest) ↔ ∃ lexeme, t = lexeme ++ rest ∧ Spelling path lexeme := by
  constructor
  · exact spelling_of_read?
  · rintro ⟨lexeme, rfl, h⟩
    exact read?_of_spelling h rest

theorem Directive.heads_of_read? {t rest path : Text} (h : read? t = some (path, rest)) :
    Heads t (t.upTo rest) path := by
  obtain ⟨lexeme, rfl, hspell⟩ := read?_eq_some_iff.1 h
  rw [Text.upTo_append_right]
  exact ⟨rest, rfl, hspell⟩

/-- No directive stands at the front of a text that cannot be read as a directive. -/
theorem Directive.read?_eq_none_iff {t : Text} :
    read? t = none ↔ ∀ lexeme path, ¬ Heads t lexeme path := by
  constructor
  · rintro h lexeme path ⟨rest, rfl, hspell⟩
    rw [read?_of_spelling hspell rest] at h
    cases h
  · intro h
    rw [Option.eq_none_iff_forall_ne_some]
    rintro ⟨path, rest⟩ hread
    exact h _ path (heads_of_read? hread)

end DeviceSheet
