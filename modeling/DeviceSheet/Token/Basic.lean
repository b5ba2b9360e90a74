import DeviceSheet.Text.Space
import DeviceSheet.Path

/-!
# Tokens

A sheet is stylesheet text with two kinds of insertion.  An *import directive*,
`@import "p";`, asks for the text of another file.  A *device call*,
`$$device(name: "n", width: w, height: h)`, asks for a block of rules for one
screen.  All other text is *literal*.  A token keeps the text it was read from,
its *lexeme*, so that no character of a sheet is lost.
-/

namespace DeviceSheet

/-- A call for the rules of one device. -/
structure DeviceCall where
  /-- The name of the device. -/
  name : Text
  /-- The width of its screen. -/
  width : Text
  /-- The height of its screen. -/
  height : Text
deriving DecidableEq

/-- A token of a sheet. -/
inductive Token where
  /-- Plain stylesheet text. -/
  | literal (lexeme : Text)
  /-- An import directive and the path between its quotes. -/
  | directive (lexeme path : Text)
  /-- A device call. -/
  | device (lexeme : Text) (call : DeviceCall)
deriving DecidableEq

namespace Token

/-- The text a token was read from. -/
def lexeme : Token → Text
  | .literal lexeme => lexeme
  | .directive lexeme _ => lexeme
  | .device lexeme _ => lexeme

/-- The call of a device token. -/
def call? : Token → Option DeviceCall
  | .device _ call => some call
  | _ => none

end Token

/-! ## Character classes -/

/-- Letters and digits of ASCII. -/
def isWordChar (c : Char) : Bool := c.isAlphanum

/-- The characters of a device name: ASCII letters, digits and `-`. -/
def isNameChar (c : Char) : Bool := isWordChar c || c = '-'

/-- The characters of a dimension: ASCII letters, digits and `%`. -/
def isDimensionChar (c : Char) : Bool := isWordChar c || c = '%'

/-- The characters of an import path: everything but the quote that ends it. -/
def isPathChar (c : Char) : Bool := c ≠ '\x22'

end DeviceSheet
