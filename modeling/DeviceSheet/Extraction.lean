import DeviceSheet.Device
import DeviceSheet.Job
import DeviceSheet.Layout
import DeviceSheet.Token.Scan

/-!
# Extracting devices

An expanded sheet is taken apart into the devices it calls, in order, and the
*residual*, the text that is left when the calls are taken out.  The body of a
device is the text of its fragment.  A fragment is not scanned itself.
-/

namespace DeviceSheet

/-- The devices a sheet calls and the text around the calls. -/
structure Extraction where
  /-- The devices, one per call, in order. -/
  devices : List Device
  /-- The sheet without the calls. -/
  residual : Text
deriving DecidableEq

/-- The device calls of a sheet, in order. -/
def calls (sheet : Text) : List DeviceCall := (scan sheet).filterMap Token.call?

/-- A sheet without its device calls. -/
def residual (sheet : Text) : Text :=
  ((scan sheet).filter fun token => token.call?.isNone).flatMap Token.lexeme

/-- Reads the fragment of a device. -/
def DeviceCall.load (deviceDir : Path) (call : DeviceCall) : Job Device := do
  let path := fragmentPath deviceDir call.name
  let fragment ← attempt (.fragmentUnreadable call.name path) (Action.read path)
  Action.note (.loaded call path)
  return .ofFragment call fragment

/-- Takes a sheet apart.  The first fragment that cannot be read is the failure. -/
def extract (sheet : Text) (deviceDir : Path) : Job Extraction := do
  let devices ← (calls sheet).mapM (DeviceCall.load deviceDir)
  return ⟨devices, residual sheet⟩

/-- The names of the devices a sheet calls, in order.  There has to be one. -/
def deviceNames (sheet : Text) : Except Failure (List Text) :=
  match (calls sheet).map DeviceCall.name with
  | [] => .error .noDevices
  | names => .ok names

end DeviceSheet
