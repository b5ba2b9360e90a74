import DeviceSheet.Disk.Access

/-!
# Editing a disk from outside

A project changes between two operations on it: files come and go by other
hands.  These are the changes, and the listing of what is there.
-/

namespace DeviceSheet

namespace Disk

/-- A disk with nothing on it but its working directory. -/
def bare (home : Place) : Disk where
  entries := (List.range home.length).map fun i => (home.take (i + 1), .dir)
  home := home

/-- The disk after an entry is put at a path, with the directories it needs.  A file that is there
is overwritten.  What cannot be put there leaves the disk with the directories alone. -/
def put (d : Disk) (p : Path) (entry : Entry) : Disk :=
  let d := (d.makeDirs (p.parent?.getD ⟨[]⟩)).2
  match entry with
  | .dir => (d.makeDirs p).2
  | .file bytes =>
      match d.write p bytes with
      | .ok d' => d'
      | .error _ => d
  | .link target =>
      match d.slot p with
      | .ok (some place) =>
          if d.get? place = some .dir then d else d.insert place (.link target)
      | _ => d

/-- The disk after what a path names is taken away, with everything below it.  A link is taken
away itself. -/
def remove (d : Disk) (p : Path) : Disk :=
  match d.slot p with
  | .ok (some place) => { d with entries := d.entries.filter fun e => !place.isPrefixOf e.1 }
  | _ => d

/-- Everything below the working directory, by its path from there. -/
def listing (d : Disk) : List (Path × Entry) :=
  d.entries.filterMap fun (place, entry) =>
    match d.home.isPrefixOf? place with
    | some (name :: names) => some (⟨['/'].intercalate (name :: names)⟩, entry)
    | _ => none

end Disk

end DeviceSheet
