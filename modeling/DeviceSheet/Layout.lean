import DeviceSheet.Path

/-!
# The layout of a project

A layout says where a project keeps its files and how deep imports may nest.  The
usual layout below a directory is

* `dmcss/index.dmcss`, the main source,
* `dmcss/devices`, the fragments, one file per device,
* `output/output.css` and `output/script.js`, the results.
-/

namespace DeviceSheet

/-- Where a project keeps its files, and how deep its imports may nest. -/
structure Layout where
  /-- The main source. -/
  source : Path
  /-- The directory of the fragments. -/
  deviceDir : Path
  /-- The compiled stylesheet. -/
  cssOutput : Path
  /-- The companion script. -/
  scriptOutput : Path
  /-- The greatest nesting depth of imports. -/
  maxImportDepth : UInt64
deriving DecidableEq

/-- The nesting depth allowed when nothing else is said. -/
def defaultMaxImportDepth : UInt64 := 64

/-- The path of the fragment of a device. -/
def fragmentPath (deviceDir : Path) (name : Text) : Path :=
  deviceDir.join ⟨name ++ ".dmcss".toList⟩

namespace Layout

/-- The usual layout below a directory. -/
def rooted (root : Path) : Layout where
  source := (root.join (.ofString "dmcss")).join (.ofString "index.dmcss")
  deviceDir := (root.join (.ofString "dmcss")).join (.ofString "devices")
  cssOutput := (root.join (.ofString "output")).join (.ofString "output.css")
  scriptOutput := (root.join (.ofString "output")).join (.ofString "script.js")
  maxImportDepth := defaultMaxImportDepth

/-- The usual layout below the working directory. -/
def standard : Layout := rooted ⟨[]⟩

/-- The directory that imports are taken from: the one of the main source. -/
def baseDir (l : Layout) : Path := l.source.directory?.getD (.ofString ".")

/-- Do two layouts name the same files and the same limit, whatever their spelling? -/
def same (l m : Layout) : Bool :=
  l.source.same m.source && l.deviceDir.same m.deviceDir && l.cssOutput.same m.cssOutput &&
    l.scriptOutput.same m.scriptOutput && l.maxImportDepth = m.maxImportDepth

end Layout

end DeviceSheet
