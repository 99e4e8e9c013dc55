/-! # Faults of file operations -/

namespace ModuleAtlas

/-- Why a question about a file or a change to one is refused. -/
inductive Fault where
  | notFound
  | denied
  | alreadyExists
  | notDirectory
  | isDirectory
  | nameTooLong
  | tooManyLinks
  | nulInPath
  deriving DecidableEq, Repr

namespace Fault

/-- The number of a fault in the operating system's table. -/
def number : Fault → Nat
  | .notFound => 2
  | .denied => 13
  | .alreadyExists => 17
  | .notDirectory => 20
  | .isDirectory => 21
  | .nameTooLong => 36
  | .tooManyLinks => 40
  | .nulInPath => 0

/-- The operating system's wording of a fault. -/
def text : Fault → String
  | .notFound => "No such file or directory"
  | .denied => "Permission denied"
  | .alreadyExists => "File exists"
  | .notDirectory => "Not a directory"
  | .isDirectory => "Is a directory"
  | .nameTooLong => "File name too long"
  | .tooManyLinks => "Too many levels of symbolic links"
  | .nulInPath => "embedded null byte"

/-- Whether a fault only says that nothing is there. -/
def isAbsence : Fault → Bool
  | .notFound | .notDirectory | .tooManyLinks | .nulInPath => true
  | _ => false

end Fault

end ModuleAtlas
