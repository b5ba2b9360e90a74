import DeviceSheet.Event
import DeviceSheet.Text.Plain
import DeviceSheet.Text.Space

/-!
# Which events are shown

A filter is a list of *directives*.  A directive with a name speaks about the targets
that start with the name, one without a name about all.  Of the directives that
speak about a target the one with the longest name decides, and among names of the same length
the last.

A filter starts with one directive for all targets.  A written filter adds more,
separated by commas: `level`, `name=level`, or `name` alone, which shows
everything.  A directive with the same name as an earlier one takes its place.
-/

namespace DeviceSheet

/-- Up to which level the events of some targets are shown. -/
structure LogDirective where
  /-- What the targets start with.  Without a name, all targets are meant. -/
  name : Option Text
  /-- The least important level that is shown.  Without a level, none is. -/
  level : Option Level
deriving DecidableEq

/-- Which events are shown. -/
abbrev LogFilter := List LogDirective

/-- A level by its name, in letters of either case. -/
def levelOfText? (t : Text) : Option (Option Level) :=
  let levels := [none, some .error, some .warn, some .info, some .debug, some .trace]
  levels.find? fun level => t.map Char.toUpper = (level.elim "OFF" Level.name).toList

namespace LogDirective

/-- Reads a directive that is not empty. -/
def ofText? (t : Text) : Except Text LogDirective :=
  match t.splitOn '=' with
  | [name] =>
      match levelOfText? name with
      | some level => .ok ⟨none, level⟩
      | none => .ok ⟨some name, some .trace⟩
  | [name, level] =>
      let level := Text.trim level
      if level = [] then .ok ⟨some name, some .trace⟩
      else match levelOfText? level with
        | some level => .ok ⟨some name, level⟩
        | none => .error level
  | _ => .error t

/-- Does the directive speak about a target? -/
def covers (r : LogDirective) (target : Text) : Bool :=
  match r.name with
  | none => true
  | some name => name.isPrefixOf target

/-- The length of the name. -/
def weight (r : LogDirective) : Nat := (r.name.getD []).byteLength

end LogDirective

namespace LogFilter

/-- Puts a directive in, in place of one with the same name. -/
def add (r : LogDirective) : LogFilter → LogFilter
  | [] => [r]
  | old :: rest => if old.name = r.name then r :: rest else old :: add r rest

/-- The filter for a number of requests for more output. -/
def ofVerbosity : Nat → LogFilter
  | 0 => [⟨none, some .warn⟩]
  | 1 => [⟨none, some .info⟩]
  | 2 => [⟨none, some .debug⟩]
  | _ => [⟨none, some .trace⟩]

/-- The directives of a written filter. -/
def parts (t : Text) : List (Except Text LogDirective) :=
  (((t.splitOn ',').map Text.trim).filter (· ≠ [])).map LogDirective.ofText?

/-- A filter with a written one added. -/
def extend (f : LogFilter) (t : Text) : LogFilter :=
  (parts t).foldl (fun f part => part.toOption.elim f fun r => add r f) f

/-- The parts of a written filter that mean nothing. -/
def complaints (t : Text) : List Text :=
  (parts t).filterMap fun part =>
    match part with
    | .error spec => some spec
    | .ok _ => none

/-- The directive that decides about a target. -/
def decisive? (f : LogFilter) (target : Text) : Option LogDirective :=
  (f.filter (·.covers target)).foldl
    (fun best r => match best with
      | none => some r
      | some b => if b.weight ≤ r.weight then some r else some b)
    none

/-- Is an event shown? -/
def shows (f : LogFilter) (e : Event) : Bool :=
  match f.decisive? e.target.toList with
  | some ⟨_, some level⟩ => e.level.rank ≤ level.rank
  | _ => false

end LogFilter

/-- The line that shows an event.  The level takes five columns, and the lines of a long message
after the first are indented.  Control sequences are left out. -/
def Event.line (e : Event) : String :=
  let level := e.level.name.toList
  let gap := List.replicate (5 - level.length) ' '
  let head := "[".toList ++ level ++ gap ++ " ".toList ++ e.target.toList ++ "] ".toList
  let message := e.message.toList.flatMap fun c => if c = '\n' then "\n    ".toList else [c]
  String.ofList (Text.plain (head ++ message ++ "\n".toList))

end DeviceSheet
