import DeviceSheet.Command.Arguments
import DeviceSheet.Command.Filter
import DeviceSheet.Registration

/-!
# The program

The program reads its command line, does the job it asks for and reports.  The exit code is 0
after success, 1 after a failure and 2 if the command line cannot be understood.
-/

namespace DeviceSheet

/-- What a run of the program leaves behind, besides the files. -/
structure Report where
  /-- The exit code. -/
  exit : Nat
  /-- The standard output. -/
  stdout : String
  /-- The standard error output. -/
  stderr : String
deriving DecidableEq

/-- The layout an invocation is about. -/
def Invocation.layout (i : Invocation) : Layout :=
  let usual := Layout.standard
  let layout := { usual with
    source := i.source.getD usual.source
    deviceDir := i.deviceDir.getD usual.deviceDir }
  match i.command with
  | .compile (some output) => { layout with cssOutput := output }
  | .generateScript (some output) => { layout with scriptOutput := output }
  | _ => layout

/-- Does a command in a layout, giving the line that tells of its success. -/
def Command.perform (l : Layout) : Command → Job String
  | .compile _ => do
      let output ← l.compileTo none
      return "Transpilation successful! Output written to " ++ output.toString
  | .generate device width height => do
      let r ← l.register device width height
      return "Device " ++ String.ofList device ++ " generated at " ++ r.fragment.toString ++
        " and registered in " ++ r.source.toString
  | .generateScript _ => do
      let output ← l.generateScript none
      return "Script written to " ++ output.toString

namespace Program

/-- The name and version of the program. -/
def version : String := "dmcss 0.1.0"

/-- The help page. -/
def help : String :=
  "Compile dmcss device stylesheets to CSS\n" ++
  "\n" ++
  "Usage: dmcss [OPTIONS] <COMMAND>\n" ++
  "\n" ++
  "Commands:\n" ++
  "  compile [OUTPUT]          Compile the main source to CSS\n" ++
  "  generate                  Scaffold a new device fragment\n" ++
  "      --device <DEVICE> --width <WIDTH> --height <HEIGHT>\n" ++
  "  generate-script [OUTPUT]  Generate the script that tags <body> with device classes\n" ++
  "\n" ++
  "Options:\n" ++
  "      --source <PATH>       Main dmcss source\n" ++
  "      --device-dir <DIR>    Directory holding <device>.dmcss fragments\n" ++
  "  -v, --verbose             More output (-v info, -vv debug, -vvv trace)\n" ++
  "  -h, --help                Print help\n" ++
  "  -V, --version             Print version\n"

/-- The filter for the events of an invocation, with the written filter of the environment. -/
def logFilter (i : Invocation) (written : Option Text) : LogFilter :=
  LogFilter.extend (.ofVerbosity i.verbosity) (written.getD [])

/-- What is said about the parts of a written filter that mean nothing. -/
def warnings (written : Option Text) : String :=
  String.join ((LogFilter.complaints (written.getD [])).map fun spec =>
    "warning: invalid logging spec '" ++ String.ofList spec ++ "', ignoring it\n")

/-- The report of a command line that ends before any job. -/
def haltReport : Halt → Report
  | .version => ⟨0, version ++ "\n", ""⟩
  | .help => ⟨0, help, ""⟩
  | .usage cause => ⟨2, "", "error: " ++ cause.message ++ "\n"⟩

/-- The report of a job.  `log` is what was shown on the way. -/
def jobReport (log : String) : Except Failure String → Report
  | .ok line => ⟨0, line ++ "\n", log⟩
  | .error failure => ⟨1, "", log ++ "Error: " ++ failure.message ++ "\n"⟩

/-- Runs the program on a disk with the given arguments and written filter. -/
def run (args : List Text) (written : Option Text) (d : Disk) : Report × Disk :=
  match Invocation.parse args with
  | .error halt => (haltReport halt, d)
  | .ok i =>
      let outcome := (i.command.perform i.layout).run d
      let shown := outcome.events.filter (logFilter i written).shows
      let log := warnings written ++ String.join (shown.map Event.line)
      (jobReport log outcome.value, outcome.disk)

end Program

end DeviceSheet
