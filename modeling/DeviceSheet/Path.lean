import DeviceSheet.Text.Basic

/-!
# Paths

A *path* is the text that names a file.  It is kept as written, and three
views of it are read off its *pieces*, the texts between the slashes.

* `Path.steps` are the moves a walk along the path makes, one per piece that
  is not empty.
* `Path.components` are the steps that matter when two paths are compared.  Single
  dots are left out, except one that starts the path.
* `Path.parents` are the paths of the enclosing directories, nearest first.  They
  keep the text as written, without the slashes and dots it would end in.
-/

namespace DeviceSheet

/-- A path, kept as it was written. -/
structure Path where
  /-- The text of the path. -/
  text : Text
deriving DecidableEq, Inhabited

/-- One part of a path. -/
inductive Component where
  /-- The slash a rooted path starts with. -/
  | root
  /-- A single dot. -/
  | here
  /-- Two dots. -/
  | up
  /-- Any other name. -/
  | name (text : Text)
deriving DecidableEq

/-- The part a piece stands for.  An empty piece stands for none. -/
def Component.ofPiece? : Text → Option Component
  | [] => none
  | ['.'] => some .here
  | ['.', '.'] => some .up
  | piece => some (.name piece)

/-- Empty pieces and single dots do not move. -/
def isIdle (piece : Text) : Bool := piece = [] || piece = ['.']

/-- How a path starts. -/
inductive Lead where
  /-- With a slash. -/
  | root
  /-- With a single dot. -/
  | here
  /-- With a name or two dots, or not at all. -/
  | plain
deriving DecidableEq

/-- The components a start counts for. -/
def Lead.components : Lead → List Component
  | .root => [.root]
  | .here => [.here]
  | .plain => []

/-- The path with a given start and given pieces after it. -/
def Lead.path : Lead → List Text → Path
  | .root, pieces => ⟨'/' :: ['/'].intercalate pieces⟩
  | .here, pieces => ⟨['/'].intercalate (['.'] :: pieces)⟩
  | .plain, pieces => ⟨['/'].intercalate pieces⟩

/-- The paths of the directories around the last piece, nearest first.  The pieces are given
last piece first. -/
def Lead.parents (lead : Lead) : List Text → List Path
  | [] => if lead = .here then [⟨[]⟩] else []
  | piece :: before =>
      if isIdle piece then lead.parents before
      else lead.path (before.dropWhile isIdle).reverse :: lead.parents before

namespace Path

/-- The path with the text of a string. -/
def ofString (s : String) : Path := ⟨s.toList⟩

/-- The text of a path as a string. -/
def toString (p : Path) : String := String.ofList p.text

/-- Does the path start at the root? -/
def isRooted (p : Path) : Bool := p.text.head? = some '/'

/-- Does the text of the path end in a slash? -/
def endsInSlash (p : Path) : Bool := p.text.getLast? = some '/'

/-- The texts between the slashes. -/
def pieces (p : Path) : List Text := p.text.splitOn '/'

/-- The moves of a walk along the path, after the root for a rooted path. -/
def steps (p : Path) : List Component := p.pieces.filterMap Component.ofPiece?

/-- How the path starts. -/
def lead (p : Path) : Lead :=
  match p.pieces with
  | [] :: _ :: _ => .root
  | ['.'] :: _ => .here
  | _ => .plain

/-- The pieces after the start. -/
def body (p : Path) : List Text :=
  match p.lead with
  | .plain => p.pieces
  | _ => p.pieces.tail

/-- The components of a path.  Two spellings with the same components are the same path. -/
def components (p : Path) : List Component :=
  p.lead.components ++ (p.body.filterMap Component.ofPiece?).filter (· ≠ .here)

/-- Do two paths have the same components? -/
def same (p q : Path) : Bool := p.components = q.components

/-- The paths of the enclosing directories, nearest first. -/
def parents (p : Path) : List Path := p.lead.parents p.body.reverse

/-- The path of the enclosing directory.  The root and the empty path have none. -/
def parent? (p : Path) : Option Path := p.parents.head?

/-- The enclosing directory, when the path names one. -/
def directory? (p : Path) : Option Path := p.parent?.filter (·.text ≠ [])

/-- The path `q` taken from the directory `base`.  A rooted path is taken as it is. -/
def join (base q : Path) : Path :=
  if q.isRooted then q
  else if base.text = [] || base.endsInSlash then ⟨base.text ++ q.text⟩
  else ⟨base.text ++ '/' :: q.text⟩

/-- A path joined to the empty path stays as it is. -/
@[simp] theorem empty_join (q : Path) : join ⟨[]⟩ q = q := by
  simp [join]

end Path

end DeviceSheet
