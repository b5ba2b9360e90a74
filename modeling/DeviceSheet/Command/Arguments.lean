import DeviceSheet.Command.Basic

/-!
# Reading the command line

A command line has options and words.  The first word is the command; what
follows is read with the command's own options and words.

* `--name value` and `--name=value` give an option its value.  A value that stands on
  its own may not start with `-`, unless it is the lone `-`.
* `-v` and `--verbose` count.  Several short options may share one dash.
* `--source`, `--device-dir` and `-v` go with every command and may stand before or
  after it.  What stands after it counts.
* No option but `-v` may be given twice on the same side of the command.
* After a lone `--` everything is a word.
* `--version` is known before the command only, `--help` everywhere.  The word `help`
  stands in place of a command and may be followed by one.  The first argument that is
  wrong or ends the reading decides.
-/

namespace DeviceSheet

namespace Arguments

/-- The part of a command line that is being read. -/
inductive Scope where
  /-- Before the command. -/
  | top
  /-- After `compile`. -/
  | compile
  /-- After `generate`. -/
  | generate
  /-- After `generate-script`. -/
  | generateScript
deriving DecidableEq

/-- The command a word asks for. -/
def Scope.ofWord? (word : Text) : Option Scope :=
  if word = "compile".toList then some .compile
  else if word = "generate".toList then some .generate
  else if word = "generate-script".toList then some .generateScript
  else none

/-- The options that hold a path, known everywhere. -/
def pathOptions : List Text := ["source".toList, "device-dir".toList]

/-- The options that hold any text, known after `generate`. -/
def textOptions : List Text := ["device".toList, "width".toList, "height".toList]

/-- The options that take no value. -/
def flags : List Text := ["verbose".toList, "help".toList, "version".toList]

/-- The options that take a value. -/
def Scope.valueOptions : Scope → List Text
  | .generate => pathOptions ++ textOptions
  | _ => pathOptions

/-- The number of words a part may have. -/
def Scope.words : Scope → Nat
  | .compile | .generateScript => 1
  | .top | .generate => 0

/-- What has been read of one part. -/
structure Given where
  /-- The options with values. -/
  values : List (Text × Text) := []
  /-- How often more output was asked for. -/
  verbosity : Nat := 0
  /-- The words. -/
  words : List Text := []
deriving DecidableEq

namespace Given

/-- The value of an option. -/
def value? (g : Given) (option : Text) : Option Text := g.values.lookup option

/-- The path that an option holds. -/
def path? (g : Given) (option : String) : Option Path := (g.value? option.toList).map Path.mk

/-- Takes in the value of an option. -/
def addValue (g : Given) (option value : Text) : Except Halt Given :=
  if (g.value? option).isSome then .error (.usage (.repeatedOption option))
  else if value = [] && pathOptions.contains option then .error (.usage .emptyPath)
  else .ok { g with values := (option, value) :: g.values }

/-- Takes in a word.  Words are paths. -/
def addWord (g : Given) (scope : Scope) (word : Text) : Except Halt Given :=
  if scope.words ≤ g.words.length then .error (.usage (.unexpectedWord word))
  else if word = [] then .error (.usage .emptyPath)
  else .ok { g with words := g.words ++ [word] }

/-- Takes in the letters behind a single dash. -/
def addLetters (g : Given) (scope : Scope) : Text → Except Halt Given
  | [] => .ok g
  | 'v' :: letters => addLetters { g with verbosity := g.verbosity + 1 } scope letters
  | 'h' :: _ => .error .help
  | letter :: letters =>
      if letter = 'V' && scope = .top then .error .version
      else .error (.usage (.unknownOption ('-' :: letter :: letters)))

/-- Takes in an option without a value. -/
def addFlag (g : Given) (scope : Scope) (option : Text) : Except Halt Given :=
  if option = "verbose".toList then .ok { g with verbosity := g.verbosity + 1 }
  else if option = "help".toList then .error .help
  else if option = "version".toList && scope = .top then .error .version
  else .error (.usage (.unknownOption option))

end Given

/-- The name of a long option and the value behind its equals sign. -/
def splitOption (option : Text) : Text × Option Text :=
  match option.dropWhile (· ≠ '=') with
  | [] => (option, none)
  | _ :: value => (option.takeWhile (· ≠ '='), some value)

/-- Can an argument be the value of the option before it? -/
def isValue : Text → Bool
  | '-' :: _ :: _ => false
  | _ => true

/-- How the reading stops at the word `help`.  It may be followed by one command to explain. -/
def helpOn : List Text → Halt
  | [] => .help
  | [topic] =>
      if (Scope.ofWord? topic).isSome || topic = "help".toList then .help
      else .usage (.unknownCommand topic)
  | _ :: extra :: _ => .usage (.unknownCommand extra)

/-- Reads one part of the command line.  Before the command, the part ends with the command's
scope and the arguments after it. -/
def readPart (scope : Scope) (g : Given) :
    List Text → Except Halt (Given × Option (Scope × List Text))
  | [] => .ok (g, none)
  | ['-', '-'] :: rest => do
      return (← rest.foldlM (fun g word => g.addWord scope word) g, none)
  | ('-' :: '-' :: option) :: rest =>
      match splitOption option with
      | (name, some value) =>
          if scope.valueOptions.contains name then do
            readPart scope (← g.addValue name value) rest
          else if flags.contains name then .error (.usage (.unneededValue name))
          else .error (.usage (.unknownOption name))
      | (name, none) =>
          if scope.valueOptions.contains name then
            match rest with
            | [] => .error (.usage (.missingValue name))
            | value :: rest =>
                if isValue value then do
                  readPart scope (← g.addValue name value) rest
                else .error (.usage (.missingValue name))
          else do
            readPart scope (← g.addFlag scope name) rest
  | ('-' :: letter :: letters) :: rest => do
      readPart scope (← g.addLetters scope (letter :: letters)) rest
  | word :: rest =>
      if scope = .top then
        match Scope.ofWord? word with
        | some command => .ok (g, some (command, rest))
        | none =>
            if word = "help".toList then .error (helpOn rest)
            else .error (.usage (.unknownCommand word))
      else do
        readPart scope (← g.addWord scope word) rest

/-- The value of an option that has to be given. -/
def Given.require (g : Given) (option : String) : Except Halt Text :=
  match g.value? option.toList with
  | some value => .ok value
  | none => .error (.usage (.missingOption option.toList))

/-- The command of a scope, from what was read in it. -/
def Scope.command (scope : Scope) (g : Given) : Except Halt Command :=
  match scope with
  | .compile => .ok (.compile (g.words.head?.map Path.mk))
  | .generateScript => .ok (.generateScript (g.words.head?.map Path.mk))
  | .generate =>
      return .generate (← g.require "device") (← g.require "width") (← g.require "height")
  | .top => .error (.usage .missingCommand)

end Arguments

/-- Reads a command line. -/
def Invocation.parse (args : List Text) : Except Halt Invocation := do
  let (before, command) ← Arguments.readPart .top {} args
  match command with
  | none => throw (.usage .missingCommand)
  | some (scope, rest) =>
      let (after, _) ← Arguments.readPart scope {} rest
      return {
        source := after.path? "source" <|> before.path? "source"
        deviceDir := after.path? "device-dir" <|> before.path? "device-dir"
        verbosity := if after.verbosity = 0 then before.verbosity else after.verbosity
        command := ← scope.command after }

end DeviceSheet
