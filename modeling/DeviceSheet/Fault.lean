/-!
# Faults

A *fault* is the reason a file system gives for refusing a request.
-/

namespace DeviceSheet

/-- Why the file system refused a request. -/
inductive Fault where
  /-- Nothing is there. -/
  | missing
  /-- Something is there already. -/
  | occupied
  /-- A directory is needed and something else is there. -/
  | notDirectory
  /-- A directory is there and something else is needed. -/
  | isDirectory
  /-- A name or the whole path is too long. -/
  | nameTooLong
  /-- Too many links were followed. -/
  | tooManyLinks
  /-- The bytes of the file are not the UTF-8 form of a text. -/
  | notText
  /-- The path holds the character zero.  It is refused before anything is looked up. -/
  | zeroInPath
  /-- Anything else, by the system's own number and wording. -/
  | other (code : Nat) (wording : String)
deriving DecidableEq

/-- Answers are compared like their parts. -/
instance decidableEqAnswer {ε α : Type} [DecidableEq ε] [DecidableEq α] :
    DecidableEq (Except ε α)
  | .ok a, .ok b => decidable_of_iff (a = b) (by simp)
  | .error a, .error b => decidable_of_iff (a = b) (by simp)
  | .ok _, .error _ => isFalse (by simp)
  | .error _, .ok _ => isFalse (by simp)

/-- The wording of a fault. -/
def Fault.message : Fault → String
  | .missing => "No such file or directory (os error 2)"
  | .occupied => "File exists (os error 17)"
  | .notDirectory => "Not a directory (os error 20)"
  | .isDirectory => "Is a directory (os error 21)"
  | .nameTooLong => "File name too long (os error 36)"
  | .tooManyLinks => "Too many levels of symbolic links (os error 40)"
  | .notText => "stream did not contain valid UTF-8"
  | .zeroInPath => "file name contained an unexpected NUL byte"
  | .other code wording => s!"{wording} (os error {code})"

end DeviceSheet
