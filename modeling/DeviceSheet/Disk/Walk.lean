import DeviceSheet.Disk.Basic
import DeviceSheet.Fault

/-!
# Walking along a path

A walk takes the steps of a path one by one, starting from the root or from the
working directory.  The rules are these.

* A step to a name that is missing ends the walk.  It is a fault unless it is the
  last step; then the walk has found a free place.
* A file ends the walk.  It is a fault unless it is the last step.
* A link puts the steps of its target before the steps that are left.  At
  most forty links are followed.
* A name takes at most 255 bytes, a whole path at most 4095.
* A path that ends in a slash leads to a directory only.  The same goes for
  the target of a link in last position.  Such a path cannot be used to create a
  file, whether or not something is there.

The recursion is structural, first in the number of links that may still be
followed (`Disk.walk`), then in the steps (`Disk.walkWith`).
-/

namespace DeviceSheet

/-- Where a walk ends, and what stands there.  The place is free when nothing does. -/
structure Spot where
  /-- The place. -/
  place : Place
  /-- What stands at the place. -/
  entry : Option Entry
deriving DecidableEq

/-- What a walk is made for. -/
inductive Purpose where
  /-- To find what is there. -/
  | find
  /-- To write a file that may not be there yet. -/
  | create
deriving DecidableEq

namespace Disk

/-- The number of links a walk may follow. -/
def maxLinks : Nat := 40

/-- The greatest number of bytes in a name. -/
def maxNameLength : Nat := 255

/-- The greatest number of bytes in a path. -/
def maxPathLength : Nat := 4095

/-- A walk from a directory.  `follow` goes on behind a link: it takes a directory, the steps to
go from there, and whether they must lead to a directory. -/
def walkWith (d : Disk) (purpose : Purpose)
    (follow : Place → List Component → Bool → Except Fault Spot) (dirOnly : Bool) :
    Place → List Component → Except Fault Spot
  | place, [] => .ok ⟨place, some .dir⟩
  | _, .root :: rest => walkWith d purpose follow dirOnly [] rest
  | place, .here :: rest => walkWith d purpose follow dirOnly place rest
  | place, .up :: rest => walkWith d purpose follow dirOnly place.dropLast rest
  | place, .name n :: rest =>
      if rest = [] ∧ dirOnly ∧ purpose = .create then .error .isDirectory
      else if maxNameLength < n.byteLength then .error .nameTooLong
      else match d.get? (place ++ [n]) with
        | none => if rest = [] then .ok ⟨place ++ [n], none⟩ else .error .missing
        | some .dir => walkWith d purpose follow dirOnly (place ++ [n]) rest
        | some (.file bytes) =>
            if rest = [] ∧ !dirOnly then .ok ⟨place ++ [n], some (.file bytes)⟩
            else .error .notDirectory
        | some (.link target) =>
            follow (if target.isRooted then [] else place) (target.steps ++ rest)
              (dirOnly || (rest.isEmpty && target.endsInSlash))

/-- A walk from a directory that follows at most the given number of links. -/
def walk (d : Disk) (purpose : Purpose) :
    (links : Nat) → Place → List Component → (dirOnly : Bool) → Except Fault Spot
  | 0, place, steps, dirOnly =>
      d.walkWith purpose (fun _ _ _ => .error .tooManyLinks) dirOnly place steps
  | links + 1, place, steps, dirOnly =>
      d.walkWith purpose (d.walk purpose links) dirOnly place steps

/-- The directory a path starts from. -/
def start (d : Disk) (p : Path) : Place := if p.isRooted then [] else d.home

/-- The fault of a path that is refused before anything is looked up. -/
def refused? (p : Path) : Option Fault :=
  if '\x00' ∈ p.text then some .zeroInPath
  else if p.text = [] then some .missing
  else if maxPathLength < p.text.byteLength then some .nameTooLong
  else none

/-- Where a path leads. -/
def locate (d : Disk) (purpose : Purpose) (p : Path) : Except Fault Spot :=
  match refused? p with
  | some fault => .error fault
  | none => d.walk purpose maxLinks (d.start p) p.steps p.endsInSlash

end Disk

end DeviceSheet
