import DeviceSheet.Registration
import DeviceSheet.Proofs.CallSearch
import DeviceSheet.Proofs.PlainExpansion

/-!
# A call on a line of its own

A line with a call can be put behind any text, also behind one that breaks off in the middle of
an insertion.  Nothing in front of the line takes part of it for its own end.

* A directive ends in a semicolon, and the line has none.  So a directive that breaks off
  is not completed.
* A call has its two dollars at the front.  So a call that breaks off would have to end before
  the dollars of the line, and there is nothing but a line feed.
* A keyword has no line feed.  So no keyword reaches into the line.

Hence the calls of the text are kept and the call of the line comes last (`calls_append_line`).
The line can be put behind a text before or after the imports of the text are expanded,
with the same outcome (`Expands.append_line`).
-/

namespace DeviceSheet

namespace Text

/-- What ends in a character that the second text does not have ends in the first. -/
theorem cut_before {t line front rest : Text} {c : Char} (hc : c ∉ line)
    (h : t ++ line = front ++ c :: rest) : ∃ more, t = front ++ c :: more := by
  rcases List.append_eq_append_iff.1 h with ⟨between, _, hline⟩ | ⟨between, rfl, hrest⟩
  · exact absurd (by simp [hline]) hc
  · cases between with
    | nil =>
      rw [List.nil_append] at hrest
      exact absurd (by simp [← hrest]) hc
    | cons c' more =>
      cases hrest
      exact ⟨more, rfl⟩

/-- A word does not go beyond a character that it does not have. -/
theorem prefix_of_append {word t u : Text} {c : Char} (hc : c ∉ word)
    (h : word <+: t ++ c :: u) : word <+: t := by
  obtain ⟨rest, hrest⟩ := h
  rcases List.append_eq_append_iff.1 hrest with ⟨between, rfl, _⟩ | ⟨between, rfl, hbetween⟩
  · exact List.prefix_append word between
  · cases between with
    | nil => exact ⟨[], by simp⟩
    | cons c' between =>
      cases hbetween
      exact absurd (by simp) hc

end Text

/-! ## Insertions in front of a line -/

theorem Directive.Spelling.semicolon {path lexeme : Text} (h : Spelling path lexeme) :
    ∃ front, lexeme = front ++ [';'] := by
  obtain ⟨_, _, _, _⟩ := h
  exact ⟨_, rfl⟩

/-- A directive is not completed by a text without a semicolon. -/
theorem Directive.read?_of_append {t line path rest : Text} (hline : ';' ∉ line)
    (h : read? (t ++ line) = some (path, rest)) : ∃ rest', read? t = some (path, rest') := by
  obtain ⟨lexeme, heq, hspell⟩ := read?_eq_some_iff.1 h
  obtain ⟨front, hfront⟩ := hspell.semicolon
  rw [hfront, List.append_assoc] at heq
  obtain ⟨more, rfl⟩ := Text.cut_before hline heq
  refine ⟨more, ?_⟩
  rw [← List.singleton_append, ← List.append_assoc, ← hfront]
  exact read?_of_spelling hspell more

namespace DeviceCall

/-- The last blank of a spelling can be left out. -/
theorem Spelling.of_concat_blank {t : Text} {call : DeviceCall} {b : Char} (hb : isBlank b = true)
    (h : Spelling call (t ++ [b])) : Spelling call t := by
  generalize hlexeme : t ++ [b] = lexeme at h
  obtain ⟨hb₁, hb₂, hb₃, name_ne, hname, hb₄, hb₅, width_ne, hwidth, hb₆, hb₇, height_ne, hheight,
    hb₈⟩ := h
  rename_i b₈
  rcases List.eq_nil_or_concat b₈ with rfl | ⟨b₈, last, rfl⟩
  · rw [List.append_nil] at hlexeme
    have hparen : b = ')' := (List.cons.inj (List.append_inj_right' hlexeme rfl)).1
    rw [hparen] at hb
    exact absurd hb (by decide)
  · rw [List.concat_eq_append] at hlexeme hb₈
    rw [← List.append_assoc] at hlexeme
    have ht := List.append_inj_left' hlexeme rfl
    rw [ht]
    exact .intro hb₁ hb₂ hb₃ name_ne hname hb₄ hb₅ width_ne hwidth hb₆ hb₇ height_ne hheight
      (Text.over_append.1 hb₈).1

/-- A text that starts with a spelling is read as its call. -/
theorem exists_read?_of_spelling {lexeme : Text} {call : DeviceCall} (h : Spelling call lexeme)
    (rest : Text) : ∃ rest', read? (lexeme ++ rest) = some (call, rest') :=
  read?_append (read?_self_of_spelling h) rest

/-- A call is not completed by a line that starts with a dollar. -/
theorem read?_of_append {t u rest : Text} {call : DeviceCall} (hne : t ≠ [])
    (h : read? (t ++ '\n' :: '$' :: u) = some (call, rest)) :
    ∃ rest', read? t = some (call, rest') := by
  obtain ⟨lexeme, heq, hspell, -⟩ := read?_eq_some_iff.1 h
  rcases List.append_eq_append_iff.1 heq with ⟨between, hlexeme, hline⟩ | ⟨between, rfl, -⟩
  · cases between with
    | nil =>
      rw [List.append_nil] at hlexeme
      subst hlexeme
      exact ⟨[], read?_self_of_spelling hspell⟩
    | cons c between =>
      cases between with
      | nil =>
        -- the spelling has the line feed and nothing else of the line
        cases hline
        rw [hlexeme] at hspell
        exact ⟨[], read?_self_of_spelling (hspell.of_concat_blank (by decide))⟩
      | cons c' between =>
        -- the dollar of the line would be one of the spelling
        cases hline
        obtain ⟨tail, htail, hdollar⟩ := hspell.dollars
        rw [htail] at hlexeme
        refine absurd ?_ hdollar
        cases t with
        | nil => exact absurd rfl hne
        | cons c t =>
          cases t with
          | nil => cases hlexeme
          | cons c t =>
            cases t with
            | nil => cases hlexeme
            | cons c t =>
              cases hlexeme
              simp
  · exact exists_read?_of_spelling hspell between

/-! ## The calls of a text with a line -/

/-- A spelling has neither the first nor the last character of a directive. -/
theorem Spelling.notMem {lexeme : Text} {call : DeviceCall} (h : Spelling call lexeme) :
    '@' ∉ lexeme ∧ ';' ∉ lexeme := by
  obtain ⟨hb₁, hb₂, hb₃, -, hname, hb₄, hb₅, -, hwidth, hb₆, hb₇, -, hheight, hb₈⟩ := h
  simp only [List.append_assoc, List.mem_append, not_or]
  constructor
  all_goals
    exact ⟨by decide, hb₁.notMem (by decide), by decide, hb₂.notMem (by decide), by decide,
      hb₃.notMem (by decide), by decide, hname.notMem (by decide), by decide,
      hb₄.notMem (by decide), by decide, hb₅.notMem (by decide), hwidth.notMem (by decide),
      by decide, hb₆.notMem (by decide), by decide, hb₇.notMem (by decide),
      hheight.notMem (by decide), by decide, hb₈.notMem (by decide)⟩

end DeviceCall

section

variable {call : DeviceCall} {lexeme : Text}

/-- A call on a line of its own is the last call of a text. -/
theorem calls_append_line (h : DeviceCall.Spelling call lexeme) (t : Text) :
    calls (t ++ '\n' :: lexeme) = calls t ++ [call] := by
  obtain ⟨tail, hlexeme, -⟩ := h.dollars
  induction t with
  | nil =>
    have hfeed : DeviceCall.read? ('\n' :: lexeme) = none :=
      DeviceCall.read?_eq_none_of_dollars fun u hu => absurd (List.cons.inj hu).1 (by decide)
    rw [List.nil_append, calls_cons, hfeed, calls_of_spelling h]
    simp
  | cons c t ih =>
    have hfront : (DeviceCall.read? (c :: t ++ '\n' :: lexeme)).map Prod.fst =
        (DeviceCall.read? (c :: t)).map Prod.fst := by
      cases hread : DeviceCall.read? (c :: t) with
      | some read =>
        obtain ⟨rest, hread'⟩ := DeviceCall.read?_append hread ('\n' :: lexeme)
        rw [hread']
        rfl
      | none =>
        cases hread' : DeviceCall.read? (c :: t ++ '\n' :: lexeme) with
        | none => rfl
        | some read =>
          rw [hlexeme] at hread'
          obtain ⟨rest, hsome⟩ := DeviceCall.read?_of_append (List.cons_ne_nil c t) hread'
          rw [hread] at hsome
          cases hsome
    rw [List.cons_append, calls_cons, calls_cons, ih, ← List.cons_append, hfront,
      List.append_assoc]

/-! ## The tokens of a text with a line -/

/-- A keyword in front of a line starts in the text before the line. -/
theorem StartsKeyword.of_append {t u : Text} (h : StartsKeyword (t ++ '\n' :: u)) :
    StartsKeyword t := by
  rcases h with h | h
  · exact .inl (Text.prefix_of_append (by decide) h)
  · exact .inr (Text.prefix_of_append (by decide) h)

theorem StartsKeyword.append {t : Text} (h : StartsKeyword t) (u : Text) :
    StartsKeyword (t ++ u) := by
  rcases h with h | h
  · exact .inl (h.trans (List.prefix_append t u))
  · exact .inr (h.trans (List.prefix_append t u))

/-- A token that is not the last one stays where it is when a line is added.  A directive does so
even if it is the last one. -/
theorem Token.Fits.append_line {token : Token} {rest : Text}
    (h : DeviceCall.Spelling call lexeme) (hfits : token.Fits (token.lexeme ++ rest))
    (hrest : rest ≠ [] ∨ token.isDirective = true) :
    token.Fits (token.lexeme ++ (rest ++ '\n' :: lexeme)) := by
  cases token with
  | device front call' =>
    obtain ⟨rest', heq, hspell, hstops⟩ := hfits
    obtain rfl := List.append_cancel_left heq
    have hne : rest ≠ [] := hrest.resolve_right (by simp [isDirective])
    obtain ⟨c, more, rfl⟩ := List.exists_cons_of_ne_nil hne
    exact ⟨_, rfl, hspell, Text.stops_append (by simp [hstops c rfl]) _⟩
  | directive front path =>
    obtain ⟨_, _, hspell⟩ := hfits
    exact ⟨_, rfl, hspell⟩
  | literal front =>
    have hne : rest ≠ [] := hrest.resolve_right (by simp [isDirective])
    rw [← List.append_assoc]
    simp only [Token.lexeme] at hfits ⊢
    rcases hfits with ⟨rest', heq, hinside, hend⟩ | ⟨⟨c, rest', rfl, _⟩, hk, hcall, hdirective⟩
    · obtain rfl := List.append_cancel_left heq
      have hk := (hend.resolve_left hne).append ('\n' :: lexeme)
      refine .inl ⟨rest ++ '\n' :: lexeme, List.append_assoc .., ?_, .inr hk⟩
      intro i hi hstarts
      have hle : i ≤ (front ++ rest).length := by
        rw [List.length_append]
        omega
      rw [List.drop_append_of_le_length hle] at hstarts
      exact hinside i hi hstarts.of_append
    · rw [← DeviceCall.read?_eq_none_iff] at hcall
      rw [← Directive.read?_eq_none_iff] at hdirective
      refine .inr ⟨⟨c, rest ++ '\n' :: lexeme, rfl, rfl⟩, hk.append _, ?_, ?_⟩
      · rw [← DeviceCall.read?_eq_none_iff, Option.eq_none_iff_forall_ne_some]
        rintro ⟨call', r⟩ hread
        obtain ⟨tail, rfl, -⟩ := h.dollars
        obtain ⟨_, hsome⟩ := DeviceCall.read?_of_append (t := [c] ++ rest) (by simp) hread
        rw [hcall] at hsome
        cases hsome
      · rw [← Directive.read?_eq_none_iff, Option.eq_none_iff_forall_ne_some]
        rintro ⟨path, r⟩ hread
        obtain ⟨_, hsome⟩ := Directive.read?_of_append (by simp [h.notMem.2]) hread
        rw [hdirective] at hsome
        cases hsome

/-! ## The expansion of a text with a line -/

theorem Directive.not_keyword_of_notMem {t : Text} (h : '@' ∉ t) : ¬ keyword <+: t := by
  rintro ⟨u, rfl⟩
  exact h (List.mem_append_left u (by decide))

/-- No directive starts in the last token of a text, unless the token is one. -/
theorem Token.Fits.not_keyword {token : Token} (hfits : token.Fits token.lexeme)
    (htoken : token.isDirective = false) (i : Nat) :
    ¬ Directive.keyword <+: token.lexeme.drop i := by
  cases token with
  | directive => cases htoken
  | device front call =>
    obtain ⟨_, _, hspell, _⟩ := hfits
    exact Directive.not_keyword_of_notMem fun hmem => hspell.notMem.1 (List.mem_of_mem_drop hmem)
  | literal front =>
    simp only [Token.lexeme] at hfits ⊢
    rcases hfits with ⟨_, _, hinside, _⟩ | ⟨⟨c, _, rfl, _⟩, hk, _⟩
    · by_cases hi : i < front.length
      · exact fun hk => hinside i hi (.inr hk)
      · rw [List.drop_eq_nil_of_le (Nat.not_lt.1 hi)]
        exact Directive.not_keyword_of_notMem (List.not_mem_nil)
    · -- one character is too short for a keyword
      rcases hk with hk | hk
      · have hlength : DeviceCall.keyword.length ≤ 1 := hk.length_le
        exact absurd hlength (by decide)
      · have hlength : Directive.keyword.length ≤ 1 := hk.length_le
        exact absurd hlength (by decide)

/-- A line without directives adds none to a text without directives. -/
theorem Directive.not_keyword_append {t u : Text} (ht : ∀ i, ¬ keyword <+: t.drop i)
    (hu : '@' ∉ u) (i : Nat) : ¬ keyword <+: (t ++ '\n' :: u).drop i := by
  by_cases hi : i ≤ t.length
  · rw [List.drop_append_of_le_length hi]
    exact fun hk => ht i (Text.prefix_of_append (by decide) hk)
  · rw [List.drop_append, List.drop_eq_nil_of_le (by omega), List.nil_append]
    refine not_keyword_of_notMem fun hmem => ?_
    rcases List.mem_cons.1 (List.mem_of_mem_drop hmem) with hfeed | hmem
    · exact absurd hfeed (by decide)
    · exact hu hmem

variable {d : Disk} {base : Path}

/-- A text in which no directive starts stands for itself. -/
theorem Expands.of_no_keyword {t : Text} (h : ∀ i, ¬ Directive.keyword <+: t.drop i) :
    Expands d base (scan t) t 0 := by
  induction t using scan_induction with
  | nil =>
    rw [scan_nil]
    exact .nil
  | step token rest _ hnext ih =>
    rw [scan_of_next? hnext]
    refine .keep ?_ (ih fun i => ?_)
    · cases token with
      | directive lexeme path =>
        obtain ⟨rest', heq, hspell⟩ := Token.fits_of_next? hnext
        have hread := Directive.read?_of_spelling hspell rest'
        rw [← heq] at hread
        obtain ⟨u, hu, _⟩ := Directive.append_of_read? hread
        exact absurd ⟨u, hu.symm⟩ (h 0)
      | literal | device => rfl
    · have hdrop := h (token.lexeme.length + i)
      rw [← List.drop_drop, List.drop_left] at hdrop
      exact hdrop

/-- A line with a call can be added before the imports of a text are expanded. -/
theorem Expands.append_line (h : DeviceCall.Spelling call lexeme) {t r : Text} {n : Nat}
    (hexpands : Expands d base (scan t) r n) :
    Expands d base (scan (t ++ '\n' :: lexeme)) (r ++ '\n' :: lexeme) n := by
  induction t using scan_induction generalizing r n with
  | nil =>
    rw [scan_nil] at hexpands
    cases hexpands
    refine .of_no_keyword (Directive.not_keyword_append (t := []) (fun i => ?_) h.notMem.1)
    rw [List.drop_nil]
    exact Directive.not_keyword_of_notMem List.not_mem_nil
  | step token rest hne hnext ih =>
    have hfits := Token.fits_of_next? hnext
    rw [scan_of_next? hnext] at hexpands
    by_cases hstays : rest ≠ [] ∨ token.isDirective = true
    · have hnext' := Token.next?_of_fits hne (hfits.append_line h hstays)
      rw [List.append_assoc, scan_of_next? hnext']
      cases hexpands with
      | keep htoken hrest =>
        rw [List.append_assoc]
        exact .keep htoken (ih hrest)
      | inline hread hinner hrest =>
        rw [List.append_assoc]
        exact .inline hread hinner (ih hrest)
    · -- the last token and the line may be cut in another way, but no directive is among them
      obtain ⟨hrest, htoken⟩ := not_or.1 hstays
      rw [not_not] at hrest
      rw [Bool.not_eq_true] at htoken
      subst hrest
      rw [scan_nil] at hexpands
      rw [List.append_nil] at hfits ⊢
      cases hexpands with
      | keep _ hrest =>
        cases hrest
        rw [List.append_nil]
        exact .of_no_keyword (Directive.not_keyword_append (hfits.not_keyword htoken) h.notMem.1)
      | inline => cases htoken

end

/-! ## The line of a new device -/

theorem isDeviceName_iff {name : Text} :
    isDeviceName name = true ↔ name ≠ [] ∧ name.Over isNameChar := by
  simp [isDeviceName, Text.Over]

theorem DeviceCall.Valid.isDeviceName {call : DeviceCall} (h : call.Valid) :
    isDeviceName call.name = true := isDeviceName_iff.2 ⟨h.name_ne, h.name⟩

/-- The text is a word over the characters of dimensions, with spaces around it. -/
def IsDimension (value : Text) : Prop := value.trim ≠ [] ∧ value.trim.Over isDimensionChar

/-- A number with the unit it is meant in, and any other word as it is. -/
def withUnit (value : Text) : Text :=
  if value.Over Char.isDigit then value ++ "px".toList else value

/-- The words over the characters of dimensions are accepted, and numbers get their unit. -/
theorem dimension_eq_ok_iff {value result : Text} :
    dimension value = .ok result ↔ IsDimension value ∧ result = withUnit value.trim := by
  have hcheck : (value.trim = [] || !value.trim.all isDimensionChar) = false ↔
      IsDimension value := by
    simp [IsDimension, Text.Over]
  have hdigits : value.trim.all Char.isDigit = true ↔ value.trim.Over Char.isDigit :=
    List.all_eq_true
  simp only [← hcheck, dimension, withUnit, ← hdigits]
  split
  · next hbad => simp [hbad]
  · next hgood =>
    rw [Bool.not_eq_true] at hgood
    simp only [hgood, true_and]
    split
    · rw [Except.ok.injEq, eq_comm]
    · rw [Except.ok.injEq, eq_comm]

theorem over_of_dimension {value result : Text} (h : dimension value = .ok result) :
    result ≠ [] ∧ result.Over isDimensionChar := by
  obtain ⟨⟨hne, hover⟩, rfl⟩ := dimension_eq_ok_iff.1 h
  unfold withUnit
  split
  · exact ⟨by simp [hne], Text.over_append.2 ⟨hover, by decide⟩⟩
  · exact ⟨hne, hover⟩

namespace DeviceCall

variable {name width height : Text} {call : DeviceCall}

/-- A new call has the given name and the dimensions in their usual form. -/
theorem checked_eq_ok_iff :
    checked name width height = .ok call ↔ isDeviceName name = true ∧ call.name = name ∧
      dimension width = .ok call.width ∧ dimension height = .ok call.height := by
  obtain ⟨name', width', height'⟩ := call
  rw [checked]
  cases isDeviceName name with
  | false => simp [bind, Except.bind, throw, throwThe, MonadExceptOf.throw]
  | true =>
    cases dimension width with
    | error failure => simp [bind, Except.bind]
    | ok width =>
      cases dimension height with
      | error failure => simp [bind, Except.bind]
      | ok height => simp [bind, Except.bind, pure, Except.pure, eq_comm]

theorem valid_of_checked (h : checked name width height = .ok call) : call.Valid := by
  obtain ⟨hname, rfl, hwidth, hheight⟩ := checked_eq_ok_iff.1 h
  obtain ⟨name_ne, hname⟩ := isDeviceName_iff.1 hname
  obtain ⟨width_ne, hwidth⟩ := over_of_dimension hwidth
  obtain ⟨height_ne, hheight⟩ := over_of_dimension hheight
  exact ⟨name_ne, hname, width_ne, hwidth, height_ne, hheight⟩

/-- The text of a valid call spells it. -/
theorem Valid.spelling_render (h : call.Valid) : Spelling call call.render := by
  have hnone : Text.Over isBlank [] := by decide
  have hspace : Text.Over isBlank " ".toList := by decide
  have hspell := Spelling.intro hnone hnone hspace h.name_ne h.name hspace hspace h.width_ne h.width
    hspace hspace h.height_ne h.height hnone
  simp only [List.append_assoc, List.append_nil] at hspell
  unfold render
  simp only [List.append_assoc]
  exact hspell

/-- The text of a new call spells it. -/
theorem spelling_of_checked (h : checked name width height = .ok call) :
    Spelling call call.render :=
  (valid_of_checked h).spelling_render

/-- The line that is added to a source for a new call. -/
def line (call : DeviceCall) : Text := '\n' :: call.render ++ ['\n']

/-- A new call is the last call of a text that its line is added to. -/
theorem calls_append_of_checked (h : checked name width height = .ok call) (t : Text) :
    calls (t ++ call.line) = calls t ++ [call] :=
  calls_append_line ((spelling_of_checked h).append_blanks (by decide)) t

/-- The line of a new call can be added before the imports of a text are expanded. -/
theorem expands_append_of_checked {d : Disk} {base : Path} {t r : Text} {n : Nat}
    (h : checked name width height = .ok call) (hexpands : Expands d base (scan t) r n) :
    Expands d base (scan (t ++ call.line)) (r ++ call.line) n :=
  hexpands.append_line ((spelling_of_checked h).append_blanks (by decide))

end DeviceCall

end DeviceSheet
