import DeviceSheet.Token.Basic

/-!
# Devices and their media blocks

A *device* is a call together with the body of its fragment.  Its *media block*
applies the body's rules to screens of the device's size, and only below the
device's class.

A body is read line by line.  Each line is one *item*: the header of a rule if
it ends in `{`, the end of a rule if it is a lone `}`, and a declaration
otherwise.  Spaces at the ends of a line do not count.  Nothing is known about
nesting: every header is scoped and indented alike.
-/

namespace DeviceSheet

/-- A device call with the body of its fragment. -/
structure Device where
  /-- The call that asks for the device. -/
  call : DeviceCall
  /-- The rules of the device. -/
  body : Text
deriving DecidableEq

/-- One line of a body. -/
inductive Item where
  /-- The header of a rule, by its selector. -/
  | header (selector : Text)
  /-- The end of a rule. -/
  | close
  /-- Anything else. -/
  | declaration (text : Text)
deriving DecidableEq

/-- The class that marks a page as shown on the named device. -/
def deviceClass (name : Text) : Text := "device-".toList ++ name

namespace Item

/-- The item on a line. -/
def ofLine (line : Text) : Item :=
  let line := line.trim
  if line.getLast? = some '\x7b' then .header (Text.trimEnd line.dropLast)
  else if line = ['\x7d'] then .close
  else .declaration line

/-- The line of a media block for an item, with headers below a class. -/
def render (scope : Text) : Item → Text
  | .header selector =>
      "  .".toList ++ scope ++ " ".toList ++ selector ++ " \x7b\n".toList
  | .close => "  \x7d\n".toList
  | .declaration text => "    ".toList ++ text ++ "\n".toList

end Item

namespace Device

/-- The device of a call whose fragment has the given text. -/
def ofFragment (call : DeviceCall) (fragment : Text) : Device := ⟨call, fragment.trim⟩

/-- The class of the device. -/
def className (d : Device) : Text := deviceClass d.call.name

/-- The items of the body. -/
def items (d : Device) : List Item := d.body.lines.map Item.ofLine

/-- The media block of the device. -/
def media (d : Device) : Text :=
  "@media (width: ".toList ++ d.call.width ++ ") and (height: ".toList ++ d.call.height ++
    ") \x7b\n".toList ++ d.items.flatMap (Item.render d.className) ++ "\x7d\n".toList

/-- The media blocks of several devices, with an empty line between neighbours. -/
def mediaBlocks (ds : List Device) : Text := "\n".toList.intercalate (ds.map media)

end Device

end DeviceSheet
