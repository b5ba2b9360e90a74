import DeviceSheet.Text.Basic
import DeviceSheet.Text.Unseen

/-!
# Quoted text

A quoted text stands between double quotes on one line.  Double quotes, backslashes and
the usual control characters are written with a backslash, other control characters and
unseen characters by their number in hexadecimal.
-/

namespace DeviceSheet

namespace Text

/-- A character by its number, `\u{…}`. -/
def quoteNumber (c : Char) : Text :=
  "\\u\x7b".toList ++ Nat.toDigits 16 c.toNat ++ "\x7d".toList

/-- A character as it stands between quotes. -/
def quoteChar (c : Char) : Text :=
  if c = '\x00' then ['\\', '0']
  else if c = '\t' then ['\\', 't']
  else if c = '\r' then ['\\', 'r']
  else if c = '\n' then ['\\', 'n']
  else if c = '\\' ∨ c = '\x22' then ['\\', c]
  else if c.toNat < 0x20 ∨ c.toNat = 0x7f ∨ isUnseen c then quoteNumber c
  else [c]

/-- A text between quotes. -/
def quoted (t : Text) : Text := '\x22' :: t.flatMap quoteChar ++ ['\x22']

end Text

end DeviceSheet
