import DeviceSheet.Token.Basic

/-!
# Reading calls and directives

The two readers take the text at one position.  Each part is read as far as it
goes and nothing is tried twice.  What follows the insertion is returned with it;
its lexeme is the text in between.

* A call is `$$device`, `(`, `name:`, a quoted name, `,`, `width:`, a
  dimension, `,`, `height:`, a dimension, `)`.  Blanks may follow `$$device`, `(`,
  each label and each comma.  The blanks after `)` belong to the call.
* A directive is `@import`, a quoted path, `;`.  Blanks may stand before and after
  the quoted path.  A path has at least one character.

`DeviceCall.append_of_read?` and `Directive.append_of_read?` say that a reader takes
its keyword and perhaps more from the front of the text, and leaves the rest as it is.
-/

namespace DeviceSheet

/-- The word every device call starts with. -/
def DeviceCall.keyword : Text := "$$device".toList

/-- The word every import directive starts with. -/
def Directive.keyword : Text := "@import".toList

/-- Does one of the two keywords start here? -/
def startsInsertion (t : Text) : Bool :=
  (t.after? DeviceCall.keyword).isSome || (t.after? Directive.keyword).isSome

/-- Reads a device call, giving it with the text after it. -/
def DeviceCall.read? (t : Text) : Option (DeviceCall × Text) := do
  let t ← t.after? keyword
  let t ← t.skipBlanks.after? "(".toList
  let t ← t.skipBlanks.after? "name:".toList
  let t ← t.skipBlanks.after? "\"".toList
  let (name, t) ← t.run? isNameChar
  let t ← t.after? "\",".toList
  let t ← t.skipBlanks.after? "width:".toList
  let (width, t) ← t.skipBlanks.run? isDimensionChar
  let t ← t.after? ",".toList
  let t ← t.skipBlanks.after? "height:".toList
  let (height, t) ← t.skipBlanks.run? isDimensionChar
  let t ← t.after? ")".toList
  return (⟨name, width, height⟩, t.skipBlanks)

/-- Reads an import directive, giving its path with the text after it. -/
def Directive.read? (t : Text) : Option (Text × Text) := do
  let t ← t.after? keyword
  let t ← t.skipBlanks.after? "\"".toList
  let (path, t) ← t.run? isPathChar
  let t ← t.after? "\"".toList
  let t ← t.skipBlanks.after? ";".toList
  return (path, t)

/-! ## What a reader leaves -/

theorem Text.suffix_of_after? {t word r : Text} (h : t.after? word = some r) : r <:+ t :=
  ⟨word, (Text.after?_eq_some.1 h).symm⟩

theorem Text.suffix_of_run? {p : Char → Bool} {t w r : Text} (h : t.run? p = some (w, r)) :
    r <:+ t :=
  ⟨w, (Text.append_of_run? h).symm⟩

theorem Text.skipBlanks_suffix (t : Text) : t.skipBlanks <:+ t :=
  List.dropWhile_suffix _

/-- A call starts with its keyword and leaves a part of what follows that. -/
theorem DeviceCall.append_of_read? {t r : Text} {call : DeviceCall} (h : read? t = some (call, r)) :
    ∃ u, t = keyword ++ u ∧ r <:+ u := by
  simp only [read?, Option.bind_eq_bind, Option.bind_eq_some_iff, Prod.exists, Option.pure_def,
    Option.some.injEq, Prod.mk.injEq] at h
  obtain ⟨t₁, h₁, t₂, h₂, t₃, h₃, t₄, h₄, _, t₅, h₅, t₆, h₆, t₇, h₇, _, t₈, h₈, t₉, h₉, t₁₀, h₁₀,
    _, t₁₁, h₁₁, t₁₂, h₁₂, _, rfl⟩ := h
  refine ⟨t₁, Text.after?_eq_some.1 h₁, ?_⟩
  have s₂ := (Text.suffix_of_after? h₂).trans t₁.skipBlanks_suffix
  have s₃ := (Text.suffix_of_after? h₃).trans t₂.skipBlanks_suffix |>.trans s₂
  have s₄ := (Text.suffix_of_after? h₄).trans t₃.skipBlanks_suffix |>.trans s₃
  have s₅ := (Text.suffix_of_run? h₅).trans s₄
  have s₆ := (Text.suffix_of_after? h₆).trans s₅
  have s₇ := (Text.suffix_of_after? h₇).trans t₆.skipBlanks_suffix |>.trans s₆
  have s₈ := (Text.suffix_of_run? h₈).trans t₇.skipBlanks_suffix |>.trans s₇
  have s₉ := (Text.suffix_of_after? h₉).trans s₈
  have s₁₀ := (Text.suffix_of_after? h₁₀).trans t₉.skipBlanks_suffix |>.trans s₉
  have s₁₁ := (Text.suffix_of_run? h₁₁).trans t₁₀.skipBlanks_suffix |>.trans s₁₀
  have s₁₂ := (Text.suffix_of_after? h₁₂).trans s₁₁
  exact t₁₂.skipBlanks_suffix.trans s₁₂

/-- A directive starts with its keyword and leaves a part of what follows that. -/
theorem Directive.append_of_read? {t r path : Text} (h : read? t = some (path, r)) :
    ∃ u, t = keyword ++ u ∧ r <:+ u := by
  simp only [read?, Option.bind_eq_bind, Option.bind_eq_some_iff, Prod.exists, Option.pure_def,
    Option.some.injEq, Prod.mk.injEq] at h
  obtain ⟨t₁, h₁, t₂, h₂, _, t₃, h₃, t₄, h₄, t₅, h₅, _, rfl⟩ := h
  refine ⟨t₁, Text.after?_eq_some.1 h₁, ?_⟩
  have s₂ := (Text.suffix_of_after? h₂).trans t₁.skipBlanks_suffix
  have s₃ := (Text.suffix_of_run? h₃).trans s₂
  have s₄ := (Text.suffix_of_after? h₄).trans s₃
  exact (Text.suffix_of_after? h₅).trans t₄.skipBlanks_suffix |>.trans s₄

end DeviceSheet
