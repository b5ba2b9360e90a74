import DeviceSheet.Disk.Identity
import DeviceSheet.Text.Quoted
import DeviceSheet.Token.Basic

/-!
# Events

The operations on a project report what they do as *events*.  An event has a
level, the part of the program it comes from (its target) and a message.
-/

namespace DeviceSheet

/-- How important an event is.  A lower rank is more important. -/
inductive Level where
  | error
  | warn
  | info
  | debug
  | trace
deriving DecidableEq

namespace Level

/-- The place of a level in the order of importance, from one. -/
def rank : Level → Nat
  | .error => 1
  | .warn => 2
  | .info => 3
  | .debug => 4
  | .trace => 5

/-- The name of a level. -/
def name : Level → String
  | .error => "ERROR"
  | .warn => "WARN"
  | .info => "INFO"
  | .debug => "DEBUG"
  | .trace => "TRACE"

end Level

/-- Something an operation did. -/
inductive Event where
  /-- The expansion of the main source starts. -/
  | resolving (source : Path)
  /-- An imported file was read. -/
  | importing (path : Path)
  /-- The files that were being expanded then, outermost first. -/
  | importChain (chain : List Identity)
  /-- A fragment was read. -/
  | loaded (call : DeviceCall) (path : Path)
  /-- The media blocks were made. -/
  | emitted (count : Nat)
  /-- The stylesheet was written. -/
  | compiled (source output : Path)
  /-- The script was written. -/
  | scripted (count : Nat) (output : Path)
  /-- The fragment of a new device was written. -/
  | fragmentCreated (path : Path)
  /-- The call of a new device was added to the main source. -/
  | registered (name : Text) (source : Path)
deriving DecidableEq

namespace Event

/-- The level of an event. -/
def level : Event → Level
  | .resolving .. | .importing .. | .loaded .. | .emitted .. => .debug
  | .importChain .. => .trace
  | .compiled .. | .scripted .. | .fragmentCreated .. | .registered .. => .info

/-- The part of the program an event comes from. -/
def target : Event → String
  | .importing .. | .importChain .. => "dmcss::resolver"
  | .loaded .. => "dmcss::tokenizer"
  | .resolving .. | .emitted .. | .compiled .. | .scripted .. => "dmcss::processor"
  | .fragmentCreated .. | .registered .. => "dmcss::scaffold"

/-- The message of an event. -/
def message : Event → String
  | .resolving source => "resolving " ++ source.toString
  | .importing path => "importing " ++ path.toString
  | .importChain chain =>
      let paths := chain.map fun file => String.ofList file.path.text.quoted
      "import chain: [" ++ ", ".intercalate paths ++ "]"
  | .loaded call path =>
      "device " ++ String.ofList call.name ++ " (" ++ String.ofList call.width ++ " x " ++
        String.ofList call.height ++ ") from " ++ path.toString
  | .emitted count => "emitted " ++ Nat.repr count ++ " device block(s)"
  | .compiled source output => "compiled " ++ source.toString ++ " to " ++ output.toString
  | .scripted count output =>
      "wrote script for " ++ Nat.repr count ++ " device(s) to " ++ output.toString
  | .fragmentCreated path => "created device fragment " ++ path.toString
  | .registered name source =>
      "registered device " ++ String.ofList name ++ " in " ++ source.toString

end Event

end DeviceSheet
