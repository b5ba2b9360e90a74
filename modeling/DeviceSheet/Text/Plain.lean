import DeviceSheet.Text.Space

/-!
# Text without control sequences

Some characters are orders to a terminal.  An escape character starts a *sequence*
of them, which has one of these forms.

* escape, some of the characters from space to `/`, and a last character,
* escape, `[`, parameters, and a last character from `@` to `~`,
* escape, `]` and text up to a bell,
* escape, one of `P`, `X`, `^`, `_` and text up to a string terminator.  After `P` the text
  starts with a head of parameters, in which there is no terminator.

A new escape character starts a new sequence anywhere.  A cancel or a substitute
character ends a sequence anywhere.

*Plain* text is what is left when sequences and single control characters are
taken out.  Blanks stay, also within a sequence of the first two forms.  A blank there
brings the text after it back to view, but the sequence is not over: it goes on at the
next character that is taken out.  Only a character beyond ASCII that is in view
ends it.
-/

namespace DeviceSheet

/-- How far a control sequence has been read. -/
inductive ControlState where
  /-- There is no sequence. -/
  | ground
  /-- After the escape character. -/
  | escape
  /-- In a sequence of the first form, before its last character. -/
  | escapeBody
  /-- In a sequence with parameters. -/
  | parameters
  /-- At the head of a device control string. -/
  | controlEntry
  /-- Among the parameters of that head. -/
  | controlParameters
  /-- After the parameters of that head. -/
  | controlEnd
  /-- In a text up to a bell. -/
  | command
  /-- In a text up to a string terminator. -/
  | string
deriving DecidableEq

namespace ControlState

/-- The state after an ASCII character that neither starts nor cancels a sequence, by its
number. -/
def nextAscii (n : Nat) : ControlState → ControlState
  | .ground => .ground
  | .escape =>
      if n < 0x20 ∨ n = 0x7f then .escape
      else if n ≤ 0x2f then .escapeBody
      else if n = 0x50 then .controlEntry
      else if n = 0x5b then .parameters
      else if n = 0x5d then .command
      else if n = 0x58 ∨ n = 0x5e ∨ n = 0x5f then .string
      else .ground
  | .escapeBody => if 0x30 ≤ n ∧ n ≤ 0x7e then .ground else .escapeBody
  | .parameters => if 0x40 ≤ n ∧ n ≤ 0x7e then .ground else .parameters
  | .controlEntry =>
      if n < 0x20 ∨ n = 0x7f then .controlEntry
      else if n ≤ 0x2f then .controlEnd
      else if n ≤ 0x3f then .controlParameters
      else .string
  | .controlParameters =>
      if n < 0x20 ∨ n = 0x7f then .controlParameters
      else if n ≤ 0x2f then .controlEnd
      else if n ≤ 0x3b then .controlParameters
      else .string
  | .controlEnd => if 0x30 ≤ n ∧ n ≤ 0x7e then .string else .controlEnd
  | .command => if n = 0x07 then .ground else .command
  | .string => .string

/-- The state after a character.  The string terminator is a byte, and is found within the bytes
of a character beyond ASCII too. -/
def next (s : ControlState) (c : Char) : ControlState :=
  if c = '\x1b' then .escape
  else if c = '\x18' ∨ c = '\x1a' then .ground
  else if c.toNat < 0x80 then s.nextAscii c.toNat
  else if s = .string ∧ 0x9c ∈ Text.encode [c] then .ground
  else s

/-- Is a character in view? -/
def shows (s : ControlState) (c : Char) : Bool :=
  match s with
  | .ground => isBlank c || (0x20 ≤ c.toNat && c ≠ '\x7f')
  | .escape | .escapeBody | .parameters => isBlank c && c ≠ ' '
  | _ => false

end ControlState

namespace Text

/-- The characters in view from a given state on.  `inView` tells whether the character before
was in view. -/
def plainFrom (inView : Bool) (s : ControlState) : Text → Text
  | [] => []
  | c :: t =>
      if inView then
        if ControlState.ground.shows c then
          c :: plainFrom true (if c.toNat < 0x80 then s else .ground) t
        else plainFrom false (s.next c) t
      else if s.shows c then c :: plainFrom true (s.next c) t
      else plainFrom false (s.next c) t

/-- A text without control sequences. -/
def plain (t : Text) : Text := plainFrom false .ground t

end Text

end DeviceSheet
