import DeviceSheet.Expander
import DeviceSheet.Extraction
import DeviceSheet.Script

/-!
# Compiling a project

The two products of a project are its stylesheet and its companion script.  Both
are made from the main source with all imports expanded.  Nothing is written
before everything has been read.
-/

namespace DeviceSheet

/-- What compiling a project gives. -/
structure Compiled extends Extraction where
  /-- The media blocks of the devices. -/
  css : Text
deriving DecidableEq

/-- The stylesheet: the residual, then the media blocks. -/
def Compiled.stylesheet (c : Compiled) : Text := c.residual ++ '\n' :: c.css

/-- Writes a file.  The directory of its path is made first. -/
def writeOutput (path : Path) (text : Text) : Job Unit := do
  if let some directory := path.directory? then
    attempt (.directoryNotMade directory) (Action.makeDirs directory)
  attempt (.notWritten path) (Action.write path text)

namespace Layout

/-- The expander of a project. -/
def expander (l : Layout) : Expander := { base := l.baseDir, limit := l.maxImportDepth }

/-- The main source with all imports expanded. -/
def resolveSource (l : Layout) : Job Text := do
  Action.note (.resolving l.source)
  l.expander.job (Expander.resolveFile l.source)

/-- Compiles a project, writing nothing. -/
def compile (l : Layout) : Job Compiled := do
  let sheet ← l.resolveSource
  let extraction ← extract sheet l.deviceDir
  Action.note (.emitted extraction.devices.length)
  return { extraction with css := Device.mediaBlocks extraction.devices }

/-- Compiles a project and writes the stylesheet, to its usual path if no other is given. -/
def compileTo (l : Layout) (output : Option Path) : Job Path := do
  let output := output.getD l.cssOutput
  let compiled ← l.compile
  writeOutput output compiled.stylesheet
  Action.note (.compiled l.source output)
  return output

/-- The names of the devices a project uses. -/
def deviceNames (l : Layout) : Job (List Text) := do
  let sheet ← l.resolveSource
  ExceptT.mk (pure (DeviceSheet.deviceNames sheet))

/-- Writes the script of a project, to its usual path if no other is given. -/
def generateScript (l : Layout) (output : Option Path) : Job Path := do
  let output := output.getD l.scriptOutput
  let names ← l.deviceNames
  writeOutput output (Script.render names)
  Action.note (.scripted names.length output)
  return output

end Layout

end DeviceSheet
