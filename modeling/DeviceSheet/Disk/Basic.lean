import DeviceSheet.Path

/-!
# Disks

A *disk* is a file system: what stands at each *place*, and the directory that
relative paths start from.  A place is the list of names on the way to it from the
root.  Files hold bytes, links hold the path they lead to.

The view of a disk is `Disk.get?`.  `get?_insert` says what an insertion does
to it.
-/

namespace DeviceSheet

/-- A location, by the names on the way to it from the root, outermost first. -/
abbrev Place := List Text

/-- The path of a place from the root. -/
def Place.path (place : Place) : Path := ⟨'/' :: ['/'].intercalate place⟩

/-- What stands at a place. -/
inductive Entry where
  /-- A file with its bytes. -/
  | file (bytes : Bytes)
  /-- A directory. -/
  | dir
  /-- A symbolic link with the path it leads to. -/
  | link (target : Path)
deriving DecidableEq

/-- A file system. -/
structure Disk where
  /-- The entries by place.  The first entry for a place counts. -/
  entries : List (Place × Entry)
  /-- The working directory. -/
  home : Place
deriving DecidableEq

namespace Disk

/-- What stands at a place.  The root is always a directory. -/
def get? (d : Disk) : Place → Option Entry
  | [] => some .dir
  | place => d.entries.lookup place

/-- The entries with one put in.  An entry for the place is replaced where it stands, a new one
goes to the end. -/
def insertInto (place : Place) (entry : Entry) : List (Place × Entry) → List (Place × Entry)
  | [] => [(place, entry)]
  | (q, old) :: rest =>
      if q = place then (place, entry) :: rest
      else (q, old) :: insertInto place entry rest

/-- The disk with an entry put at a place. -/
def insert (d : Disk) (place : Place) (entry : Entry) : Disk :=
  { d with entries := insertInto place entry d.entries }

theorem lookup_insertInto (place : Place) (entry : Entry) (entries : List (Place × Entry))
    (q : Place) :
    (insertInto place entry entries).lookup q =
      if q = place then some entry else entries.lookup q := by
  induction entries with
  | nil =>
    rw [insertInto, List.lookup_cons]
    by_cases h : q = place
    · simp [h]
    · simp [h, beq_false_of_ne h]
  | cons head rest ih =>
    obtain ⟨p, old⟩ := head
    by_cases hp : p = place
    · rw [insertInto, if_pos hp, List.lookup_cons, List.lookup_cons, hp]
      by_cases h : q = place
      · simp [h]
      · simp [h, beq_false_of_ne h]
    · rw [insertInto, if_neg hp, List.lookup_cons, List.lookup_cons, ih]
      by_cases h : q = p
      · simp [h, hp]
      · simp [beq_false_of_ne h]

/-- An insertion below the root changes the view at its place and nowhere else. -/
theorem get?_insert (d : Disk) {place : Place} (hplace : place ≠ []) (entry : Entry) (q : Place) :
    (d.insert place entry).get? q = if q = place then some entry else d.get? q := by
  cases q with
  | nil => simp [get?, Ne.symm hplace]
  | cons n q => exact lookup_insertInto place entry d.entries (n :: q)

/-- An insertion keeps the working directory. -/
@[simp] theorem home_insert (d : Disk) (place : Place) (entry : Entry) :
    (d.insert place entry).home = d.home := rfl

end Disk

end DeviceSheet
