import DeviceSheet.Project

/-!
# Registering a device

A new device gets a fragment with a stub of a rule, and a call at the end of the
main source.  A fragment that is there is left alone, and the device is refused.

The name and the dimensions are checked against the character classes of the scanner, so that the
call can be read back.  A dimension is trimmed first.  If it has digits only, it is a
number of pixels and gets the unit.
-/

namespace DeviceSheet

/-- What registering a device did. -/
structure Registration where
  /-- The new fragment. -/
  fragment : Path
  /-- The main source. -/
  source : Path
  /-- The call added to the main source. -/
  invocation : Text
deriving DecidableEq

/-- Is this the name of a device? -/
def isDeviceName (name : Text) : Bool := name ≠ [] && name.all isNameChar

/-- A dimension in its usual form. -/
def dimension (value : Text) : Except Failure Text :=
  let value := value.trim
  if value = [] || !value.all isDimensionChar then .error (.invalidDimension value)
  else if value.all Char.isDigit then .ok (value ++ "px".toList)
  else .ok value

/-- The text of a device call. -/
def DeviceCall.render (call : DeviceCall) : Text :=
  "$$device(name: \"".toList ++ call.name ++ "\", width: ".toList ++ call.width ++
    ", height: ".toList ++ call.height ++ ")".toList

/-- The first text of a fragment. -/
def fragmentStub (name : Text) : Text :=
  "/* Styles for ".toList ++ name ++
    " */\nbody \x7b\n    /* Add styles here */\n\x7d\n".toList

/-- The call of a new device, if its name and dimensions are in order. -/
def DeviceCall.checked (name width height : Text) : Except Failure DeviceCall := do
  if !isDeviceName name then
    throw (.invalidName name)
  let width ← dimension width
  let height ← dimension height
  return ⟨name, width, height⟩

/-- Adds a line to the end of a file.  The directory of its path is made first. -/
def appendLine (path : Path) (line : Text) : Job Unit := do
  if let some directory := path.directory? then
    attempt (.directoryNotMade directory) (Action.makeDirs directory)
  attempt (.notWritten path) (Action.append path ('\n' :: line ++ ['\n']))

/-- Registers a new device. -/
def Layout.register (l : Layout) (name width height : Text) : Job Registration := do
  let call ← ExceptT.mk (pure (DeviceCall.checked name width height))
  let fragment := fragmentPath l.deviceDir call.name
  if ← Action.contains fragment then
    throw (.fragmentExists fragment)
  attempt (.directoryNotMade l.deviceDir) (Action.makeDirs l.deviceDir)
  attempt (.notWritten fragment) (Action.write fragment (fragmentStub call.name))
  Action.note (.fragmentCreated fragment)
  appendLine l.source call.render
  Action.note (.registered call.name l.source)
  return ⟨fragment, l.source, call.render⟩

end DeviceSheet
