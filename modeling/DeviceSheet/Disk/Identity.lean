import DeviceSheet.Disk.Basic

/-!
# File identity

One file can be reached by many paths.  Two paths lead to the same file if they lead
to the same place.  Where the place of a file cannot be found, its path stands for
it.
-/

namespace DeviceSheet

/-- What tells one file from another: its place, or its path if the place is not known. -/
inductive Identity where
  /-- The file at a place. -/
  | at (place : Place)
  /-- The file that a path with these components leads to. -/
  | along (path : Path)
deriving DecidableEq

/-- The path that stands for a file. -/
def Identity.path : Identity → Path
  | .at place => place.path
  | .along path => path

/-- Do two identities stand for the same file? -/
def Identity.same : Identity → Identity → Bool
  | .at p, .at q => p = q
  | i, j => i.path.same j.path

end DeviceSheet
