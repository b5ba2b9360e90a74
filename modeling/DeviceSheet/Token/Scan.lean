import DeviceSheet.Token.Read

/-!
# Scanning a sheet

`scan` cuts a sheet into tokens from left to right.  At each position it takes
a device call if one can be read there, else an import directive.  Else the token
is literal: the text up to the next place where a keyword starts, or one character
if a keyword starts right here.  So a malformed insertion gives up its first
character and the scan goes on behind it.  Every text has a scan.

`append_of_next?` says that a step loses nothing, `lexeme_ne_nil_of_next?` that it
moves on.  The scan ends for that reason.
-/

namespace DeviceSheet

namespace Token

/-- The text up to the next place where a keyword starts, and the text from there on. -/
def literalRun : Text → Text × Text
  | [] => ([], [])
  | c :: t =>
      if startsInsertion (c :: t) then ([], c :: t)
      else
        let (run, rest) := literalRun t
        (c :: run, rest)

/-- The first token of a text, and the text after it. -/
def next? : Text → Option (Token × Text)
  | [] => none
  | c :: t =>
      match DeviceCall.read? (c :: t) with
      | some (call, rest) => some (.device (Text.upTo (c :: t) rest) call, rest)
      | none =>
          match Directive.read? (c :: t) with
          | some (path, rest) => some (.directive (Text.upTo (c :: t) rest) path, rest)
          | none =>
              if startsInsertion (c :: t) then some (.literal [c], t)
              else
                let (run, rest) := literalRun (c :: t)
                some (.literal run, rest)

theorem literalRun_append (t : Text) : (literalRun t).1 ++ (literalRun t).2 = t := by
  induction t with
  | nil => rfl
  | cons c t ih =>
    rw [literalRun]
    split
    · rfl
    · simp [ih]

/-- What was read from a text that starts with a word is not empty. -/
theorem upTo_ne_nil {t word u r : Text} (hw : word ≠ []) (ht : t = word ++ u) (hr : r <:+ u) :
    t.upTo r ≠ [] := by
  have hlen : r.length ≤ u.length := hr.length_le
  have hpos : 0 < word.length := List.length_pos_iff.2 hw
  have happ := congrArg List.length (Text.upTo_append (hr.trans ⟨word, ht.symm⟩))
  intro h
  rw [h] at happ
  simp [ht] at happ
  omega

/-- Only the empty text has no first token. -/
theorem next?_eq_none {t : Text} : next? t = none ↔ t = [] := by
  cases t with
  | nil => simp [next?]
  | cons c t =>
    rw [next?]
    repeat' split
    all_goals simp

/-- A step loses nothing: the lexeme and the rest make up the text. -/
theorem append_of_next? {t rest : Text} {token : Token} (h : next? t = some (token, rest)) :
    token.lexeme ++ rest = t := by
  unfold next? at h
  split at h
  · cases h
  · next c t =>
    split at h
    · next call r hr =>
      cases h
      obtain ⟨u, hu, hs⟩ := DeviceCall.append_of_read? hr
      exact Text.upTo_append (hs.trans ⟨_, hu.symm⟩)
    · split at h
      · next path r hr =>
        cases h
        obtain ⟨u, hu, hs⟩ := Directive.append_of_read? hr
        exact Text.upTo_append (hs.trans ⟨_, hu.symm⟩)
      · split at h <;> cases h
        · rfl
        · exact literalRun_append (c :: t)

/-- A step moves on: no lexeme is empty. -/
theorem lexeme_ne_nil_of_next? {t rest : Text} {token : Token}
    (h : next? t = some (token, rest)) : token.lexeme ≠ [] := by
  unfold next? at h
  split at h
  · cases h
  · next c t =>
    split at h
    · next call r hr =>
      cases h
      obtain ⟨u, hu, hs⟩ := DeviceCall.append_of_read? hr
      exact upTo_ne_nil (by decide) hu hs
    · split at h
      · next path r hr =>
        cases h
        obtain ⟨u, hu, hs⟩ := Directive.append_of_read? hr
        exact upTo_ne_nil (by decide) hu hs
      · split at h <;> simp only [Option.some.injEq, Prod.mk.injEq] at h
        · simp [← h.1, lexeme]
        · next hs => simp [← h.1, lexeme, literalRun, hs]

/-- What is left after a step is shorter. -/
theorem length_lt_of_next? {t rest : Text} {token : Token} (h : next? t = some (token, rest)) :
    rest.length < t.length := by
  have hlen := congrArg List.length (append_of_next? h)
  have hpos := List.length_pos_iff.2 (lexeme_ne_nil_of_next? h)
  simp only [List.length_append] at hlen
  omega

end Token

/-- The tokens of a text, from left to right. -/
def scan (t : Text) : List Token :=
  match _h : Token.next? t with
  | none => []
  | some (token, rest) => token :: scan rest
termination_by t.length
decreasing_by exact Token.length_lt_of_next? _h

/-- The scan of a text that has a first token. -/
theorem scan_of_next? {t rest : Text} {token : Token} (h : Token.next? t = some (token, rest)) :
    scan t = token :: scan rest := by
  rw [scan]
  split
  · next hn => rw [h] at hn; cases hn
  · next hs => rw [h] at hs; cases hs; rfl

/-- The empty text has no tokens. -/
@[simp] theorem scan_nil : scan [] = [] := by
  rw [scan]
  rfl

end DeviceSheet
