import DeviceSheet.Command.Program

/-!
# The command line tool

The requests of a job are served by the file system of the machine.
-/

namespace DeviceSheet.Program

/-- The fault that an error of the machine stands for. -/
def faultOf : IO.Error → Fault
  | .noFileOrDirectory .. => .missing
  | .alreadyExists .. => .occupied
  | .inappropriateType _ code details =>
      if code = 20 then .notDirectory
      else if code = 21 then .isDirectory
      else .other code.toNat details
  | .invalidArgument _ code details =>
      if code = 36 then .nameTooLong
      else if code = 40 then .tooManyLinks
      else .other code.toNat details
  | .permissionDenied _ code details | .resourceExhausted _ code details
  | .otherError code details => .other code.toNat details
  | error => .other 0 (toString error)

/-- Asks the machine for something at a path. -/
def asked {α : Type} (path : Path) (act : String → IO α) : IO (Except Fault α) := do
  if '\x00' ∈ path.text then
    return .error .zeroInPath
  try
    return .ok (← act path.toString)
  catch error =>
    return .error (faultOf error)

/-- The answer of the machine to a request.  Events are shown as the filter says. -/
def answer (filter : LogFilter) : (request : Request) → IO request.Answer
  | .read path => do
      match ← asked path fun name => IO.FS.readBinFile name with
      | .ok bytes => return (Text.decode? bytes.data.toList).elim (.error .notText) .ok
      | .error fault => return .error fault
  | .locate path => do
      match ← asked path fun name => IO.FS.realPath name with
      | .ok real =>
          let pieces := real.toString.toList.splitOn '/'
          return some (pieces.filter (· ≠ []))
      | .error _ => return none
  | .contains path => do
      match ← asked path fun name => IO.FS.realPath name with
      | .ok _ => return true
      | .error _ => return false
  | .makeDirs path => do
      if path.text = [] then
        return .ok ()
      asked path fun name => IO.FS.createDirAll name
  | .write path text => asked path fun name => IO.FS.writeBinFile name ⟨text.encode.toArray⟩
  | .append path text => asked path fun name => do
      let handle ← IO.FS.Handle.mk name .append
      handle.write ⟨text.encode.toArray⟩
      handle.flush
  | .note event => do
      if filter.shows event then
        IO.eprint event.line

/-- Runs an action on the machine. -/
def perform {α : Type} (filter : LogFilter) : Action α → IO α
  | .done value => return value
  | .ask request next => do perform filter (next (← answer filter request))

/-- Writes a report out, giving the exit code. -/
def emit (report : Report) : IO UInt32 := do
  IO.print report.stdout
  IO.eprint report.stderr
  return UInt32.ofNat report.exit

/-- Runs the tool with the given arguments. -/
def start (args : List String) : IO UInt32 := do
  let written := (← IO.getEnv "RUST_LOG").map String.toList
  match Invocation.parse (args.map String.toList) with
  | .error halt => emit (haltReport halt)
  | .ok i =>
      IO.eprint (warnings written)
      let job := i.command.perform i.layout
      emit (jobReport "" (← perform (logFilter i written) (ExceptT.run job)))

end DeviceSheet.Program

/-- The command line tool. -/
def main (args : List String) : IO UInt32 := DeviceSheet.Program.start args
