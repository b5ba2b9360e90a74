import DeviceSheet.Fault
import DeviceSheet.Path

/-!
# Failures

A *failure* is the reason an operation on a project gives for ending early.  The
wording of every failure is in `Failure.message`.

No failure says that a text has no scan.  Every text has one, since what is neither a
call nor a directive is kept as it is, so there is nothing to report.
-/

namespace DeviceSheet

/-- Why an operation on a project failed. -/
inductive Failure where
  /-- The main source cannot be read. -/
  | sourceUnreadable (path : Path) (cause : Fault)
  /-- An imported file cannot be read. -/
  | importUnreadable (path : Path) (cause : Fault)
  /-- An imported file is being expanded already. -/
  | importCycle (path : Path)
  /-- An import lies deeper than the limit allows. -/
  | importTooDeep (path : Path) (limit : UInt64)
  /-- The fragment of a device cannot be read. -/
  | fragmentUnreadable (name : Text) (path : Path) (cause : Fault)
  /-- A directory cannot be made. -/
  | directoryNotMade (path : Path) (cause : Fault)
  /-- A file cannot be written. -/
  | notWritten (path : Path) (cause : Fault)
  /-- A script is asked for and the source calls no device. -/
  | noDevices
  /-- A new device has a name with other characters than names have. -/
  | invalidName (name : Text)
  /-- A new device has a dimension with other characters than dimensions have. -/
  | invalidDimension (value : Text)
  /-- A new device has a fragment already. -/
  | fragmentExists (path : Path)
deriving DecidableEq

/-- The wording of a failure. -/
def Failure.message : Failure → String
  | .sourceUnreadable path cause =>
      "Failed to read source " ++ path.toString ++ ": " ++ cause.message
  | .importUnreadable path cause =>
      "Failed to import file " ++ path.toString ++ ": " ++ cause.message
  | .importCycle path => "Cyclic import of " ++ path.toString
  | .importTooDeep path limit =>
      "Import of " ++ path.toString ++ " exceeds the maximum nesting depth of " ++
        Nat.repr limit.toNat
  | .fragmentUnreadable name path cause =>
      "Failed to read fragment for device '" ++ String.ofList name ++ "' at " ++ path.toString ++
        ": " ++ cause.message
  | .directoryNotMade path cause =>
      "Failed to create directory " ++ path.toString ++ ": " ++ cause.message
  | .notWritten path cause => "Failed to write " ++ path.toString ++ ": " ++ cause.message
  | .noDevices => "No device names found in the input"
  | .invalidName name =>
      "Invalid device: name '" ++ String.ofList name ++
        "' may only contain letters, digits and '-'"
  | .invalidDimension value =>
      "Invalid device: dimension '" ++ String.ofList value ++
        "' may only contain letters, digits and '%'"
  | .fragmentExists path => "Device fragment " ++ path.toString ++ " already exists"

end DeviceSheet
