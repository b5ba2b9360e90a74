/-!
# Text

Sheets, paths and stylesheets are all *text*, a list of characters.  Lists
make every function here structural, so closed instances are settled by
`decide`.

* `Text.after?` and `Text.run?` are the two steps of every reader: a fixed word,
  and a run of characters of one class.
* `Text.lines` cuts a text at line feeds.
* `Text.encode` and `Text.decode?` go to the bytes of a file and back.
-/

namespace DeviceSheet

/-- A piece of text, character by character. -/
abbrev Text := List Char

/-- The contents of a file. -/
abbrev Bytes := List UInt8

namespace Text

/-! ## Reading from the front -/

/-- What follows a given word at the front of a text. -/
def after? : (t word : Text) → Option Text
  | t, [] => some t
  | [], _ :: _ => none
  | c :: t, d :: word => if c = d then after? t word else none

/-- A word is read exactly off the texts that start with it. -/
theorem after?_eq_some {t word r : Text} : t.after? word = some r ↔ t = word ++ r := by
  induction word generalizing t with
  | nil => simp [after?]
  | cons d word ih =>
    cases t with
    | nil => simp [after?]
    | cons c t =>
      by_cases h : c = d
      · simp [after?, h, ih]
      · simp [after?, h]

/-- The longest run of characters of one class at the front of a text, with what follows it.
An empty run is refused. -/
def run? (p : Char → Bool) (t : Text) : Option (Text × Text) :=
  match t.takeWhile p with
  | [] => none
  | c :: cs => some (c :: cs, t.dropWhile p)

/-- A run and what follows it make up the text. -/
theorem append_of_run? {p : Char → Bool} {t w r : Text} (h : run? p t = some (w, r)) :
    t = w ++ r := by
  unfold run? at h
  split at h
  · cases h
  · next c cs hw =>
    cases h
    rw [← hw, List.takeWhile_append_dropWhile]

/-- The text read so far, when `rest` is what is left of `t`. -/
def upTo (t rest : Text) : Text := t.take (t.length - rest.length)

/-- What was read and what is left make up the text. -/
theorem upTo_append {t rest : Text} (h : rest <:+ t) : t.upTo rest ++ rest = t := by
  obtain ⟨front, rfl⟩ := h
  simp [upTo]

/-! ## Lines -/

/-- A text without the carriage return it may end in. -/
def dropReturn (t : Text) : Text :=
  if t.getLast? = some '\r' then t.dropLast else t

/-- The lines of a text.  A line ends at a line feed, and a carriage return before the line
feed belongs to the line's end.  Text after the last line feed is a line of its own, kept as it
is, unless it is empty. -/
def lines (t : Text) : List Text :=
  let pieces := t.splitOn '\n'
  let ended := pieces.dropLast.map dropReturn
  match pieces.getLast? with
  | some (c :: cs) => ended ++ [c :: cs]
  | _ => ended

/-! ## Bytes -/

/-- The number of bytes a text takes in UTF-8. -/
def byteLength : Text → Nat
  | [] => 0
  | c :: t => c.utf8Size + byteLength t

/-- The UTF-8 bytes of a text. -/
def encode (t : Text) : Bytes := (String.ofList t).toUTF8.data.toList

/-- The text of which these are the UTF-8 bytes.  There is none for a surrogate, an overlong
form or a number beyond the last character. -/
def decode? (bytes : Bytes) : Option Text :=
  (String.fromUTF8? ⟨bytes.toArray⟩).map String.toList

/-- Decoding undoes encoding. -/
@[simp] theorem decode?_encode (t : Text) : decode? t.encode = some t := by
  have h : String.fromUTF8? (String.ofList t).toUTF8 = some (String.ofList t) := by
    rw [String.fromUTF8?, String.toUTF8_eq_toByteArray, dif_pos (String.ofList t).isValidUTF8]
    rfl
  rw [decode?, encode, Array.toArray_toList, h, Option.map_some, String.toList_ofList]

end Text

end DeviceSheet
