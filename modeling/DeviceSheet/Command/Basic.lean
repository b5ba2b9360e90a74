import DeviceSheet.Layout

/-!
# Commands

What the command line can ask for, and what can be wrong with it.
-/

namespace DeviceSheet

/-- A command. -/
inductive Command where
  /-- Compile the main source. -/
  | compile (output : Option Path)
  /-- Register a device. -/
  | generate (device width height : Text)
  /-- Write the companion script. -/
  | generateScript (output : Option Path)
deriving DecidableEq

/-- A command with the options that go with every command. -/
structure Invocation where
  /-- The main source, if it is not the usual one. -/
  source : Option Path
  /-- The directory of the fragments, if it is not the usual one. -/
  deviceDir : Option Path
  /-- How often more output was asked for. -/
  verbosity : Nat
  /-- The command. -/
  command : Command
deriving DecidableEq

/-- Why a command line cannot be understood. -/
inductive UsageError where
  /-- There is no such option. -/
  | unknownOption (option : Text)
  /-- The option needs a value and has none. -/
  | missingValue (option : Text)
  /-- The option takes no value and has one. -/
  | unneededValue (option : Text)
  /-- The option may be given once only. -/
  | repeatedOption (option : Text)
  /-- A path may not be empty. -/
  | emptyPath
  /-- There is no such command. -/
  | unknownCommand (word : Text)
  /-- There is a word too many. -/
  | unexpectedWord (word : Text)
  /-- The option has to be given. -/
  | missingOption (option : Text)
  /-- There is no command at all. -/
  | missingCommand
deriving DecidableEq

/-- The wording of a usage error. -/
def UsageError.message : UsageError → String
  | .unknownOption option => "unknown option '" ++ String.ofList option ++ "'"
  | .missingValue option => "option '" ++ String.ofList option ++ "' needs a value"
  | .unneededValue option => "option '" ++ String.ofList option ++ "' takes no value"
  | .repeatedOption option => "option '" ++ String.ofList option ++ "' is given twice"
  | .emptyPath => "a path may not be empty"
  | .unknownCommand word => "unknown command '" ++ String.ofList word ++ "'"
  | .unexpectedWord word => "unexpected argument '" ++ String.ofList word ++ "'"
  | .missingOption option => "option '--" ++ String.ofList option ++ "' is required"
  | .missingCommand => "a command is required"

/-- Why the reading of a command line stops before its end. -/
inductive Halt where
  /-- The command line cannot be understood. -/
  | usage (cause : UsageError)
  /-- The version is asked for. -/
  | version
  /-- Help is asked for. -/
  | help
deriving DecidableEq

end DeviceSheet
