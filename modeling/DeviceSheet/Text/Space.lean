import DeviceSheet.Text.Basic

/-!
# White space

Two classes of white space are in use.  *Blanks* are the five ASCII
characters that may stand between the parts of a call or a directive.  *Spaces*
are the characters with the Unicode property White_Space; they are what
trimming removes.
-/

namespace DeviceSheet

/-- Space, tab, line feed, carriage return and form feed. -/
def isBlank (c : Char) : Bool :=
  c = ' ' || c = '\t' || c = '\n' || c = '\r' || c = '\x0c'

/-- The ranges of code points with the property White_Space, both ends included. -/
def spaceRanges : List (Nat × Nat) :=
  [(0x09, 0x0d), (0x20, 0x20), (0x85, 0x85), (0xa0, 0xa0), (0x1680, 0x1680), (0x2000, 0x200a),
    (0x2028, 0x2029), (0x202f, 0x202f), (0x205f, 0x205f), (0x3000, 0x3000)]

/-- Does the character have the property White_Space? -/
def isSpace (c : Char) : Bool :=
  spaceRanges.any fun r => r.1 ≤ c.toNat && c.toNat ≤ r.2

namespace Text

/-- A text without the blanks at its front. -/
def skipBlanks (t : Text) : Text := t.dropWhile isBlank

/-- A text without the spaces at its front. -/
def trimStart (t : Text) : Text := t.dropWhile isSpace

/-- A text without the spaces at its end. -/
def trimEnd (t : Text) : Text := (t.reverse.dropWhile isSpace).reverse

/-- A text without the spaces at either end. -/
def trim (t : Text) : Text := t.trimStart.trimEnd

end Text

end DeviceSheet
