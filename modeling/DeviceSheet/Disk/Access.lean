import DeviceSheet.Disk.Walk

/-!
# Reading and writing

The requests a program makes of a disk.  Each takes a path as written and
either serves it or gives the fault.

* `Disk.read` gives the text of a file.
* `Disk.place?` gives the place a path leads to, if something is there.
* `Disk.write` and `Disk.append` make the file if the path leads to a free place.
  They follow links, so a link to a free place gets its target made.  They are done in full
  or not at all.
* `Disk.makeDir` makes one directory.  It does not follow a link in last position.
* `Disk.makeDirs` makes a directory and those around it that are missing.  What it made
  before a fault stays.
-/

namespace DeviceSheet

namespace Disk

/-- The text of the file a path leads to. -/
def read (d : Disk) (p : Path) : Except Fault Text :=
  match d.locate .find p with
  | .error fault => .error fault
  | .ok ⟨_, none⟩ => .error .missing
  | .ok ⟨_, some (.file bytes)⟩ =>
      match Text.decode? bytes with
      | some t => .ok t
      | none => .error .notText
  | .ok ⟨_, some _⟩ => .error .isDirectory

/-- The place a path leads to, if something is there. -/
def place? (d : Disk) (p : Path) : Option Place :=
  match d.locate .find p with
  | .ok ⟨place, some _⟩ => some place
  | _ => none

/-- Does a path lead to something? -/
def contains (d : Disk) (p : Path) : Bool := (d.place? p).isSome

/-- Does a path lead to a directory? -/
def hasDir (d : Disk) (p : Path) : Bool :=
  match d.locate .find p with
  | .ok ⟨_, some .dir⟩ => true
  | _ => false

/-- The disk after the bytes of one file are changed.  A file that is not there yet has no
bytes.  Once the file is open all bytes are written.  Faults that come later, such as a full disk,
a quota or a failing drive, are not modelled. -/
def update (d : Disk) (p : Path) (change : Bytes → Bytes) : Except Fault Disk :=
  match d.locate .create p with
  | .error fault => .error fault
  | .ok ⟨place, none⟩ => .ok (d.insert place (.file (change [])))
  | .ok ⟨place, some (.file bytes)⟩ => .ok (d.insert place (.file (change bytes)))
  | .ok ⟨_, some _⟩ => .error .isDirectory

/-- The disk after a file is given new contents. -/
def write (d : Disk) (p : Path) (bytes : Bytes) : Except Fault Disk :=
  d.update p fun _ => bytes

/-- The disk after a file is made longer. -/
def append (d : Disk) (p : Path) (bytes : Bytes) : Except Fault Disk :=
  d.update p fun old => old ++ bytes

/-- The place that the last name of a path stands for, in the directory that the steps before it
lead to.  A link there is not followed.  A path that ends in dots, or is the root, has no last
name. -/
def slot (d : Disk) (p : Path) : Except Fault (Option Place) :=
  match refused? p with
  | some fault => .error fault
  | none =>
      match d.walk .find maxLinks (d.start p) p.steps.dropLast true with
      | .error fault => .error fault
      | .ok ⟨_, none⟩ => .error .missing
      | .ok ⟨place, some _⟩ =>
          match p.steps.getLast? with
          | some (.name n) =>
              if maxNameLength < n.byteLength then .error .nameTooLong
              else .ok (some (place ++ [n]))
          | _ => .ok none

/-- The disk after one directory is made. -/
def makeDir (d : Disk) (p : Path) : Except Fault Disk :=
  match d.slot p with
  | .error fault => .error fault
  | .ok none => .error .occupied
  | .ok (some place) =>
      match d.get? place with
      | none => .ok (d.insert place .dir)
      | some _ => .error .occupied

/-- Makes a directory and those around it that are missing, given its path and the paths around
it, nearest first.  A directory that is there already is no fault. -/
def makeDirsAlong (d : Disk) : List Path → Except Fault Unit × Disk
  | [] => (.ok (), d)
  | p :: around =>
      if p.text = [] then (.ok (), d)
      else match d.makeDir p with
        | .ok d' => (.ok (), d')
        | .error .missing =>
            match d.makeDirsAlong around with
            | (.error fault, d') => (.error fault, d')
            | (.ok (), d') =>
                match d'.makeDir p with
                | .ok d'' => (.ok (), d'')
                | .error fault => (if d'.hasDir p then .ok () else .error fault, d')
        | .error fault => (if d.hasDir p then .ok () else .error fault, d)

/-- Makes a directory and those around it that are missing. -/
def makeDirs (d : Disk) (p : Path) : Except Fault Unit × Disk :=
  d.makeDirsAlong (p :: p.parents)

end Disk

end DeviceSheet
