import ModuleAtlas.FileTree.Fault
import ModuleAtlas.Settings.Problem
import ModuleAtlas.Text.Search
import ModuleAtlas.Text.Utf8

/-! # Failures

Every way in which an operation can fail, and the wording of each.
-/

namespace ModuleAtlas

/-- Why an operation failed. -/
inductive Failure where
  | file (fault : Fault) (path : String)
  | undecodable (fault : Text.Utf8.Fault)
  | frozenGraph
  | alreadyBuilt
  | unknownPolicy (shown : String)
  | negativeBound
  | incomparable (sign left right : String)
  | unexpectedOption (operation option : String)
  | repeatedOption (operation option : String)
  | notIterable (kind : String)
  | notText (index : Nat) (kind : String)
  | notJoinable (kind : String)
  | noAttribute (kind member : String)
  | invalidSettings (problems : List Problem)
  deriving DecidableEq, Repr

/-- The wording of a failure. -/
def Failure.message : Failure → String
  | .file .nulInPath _ => Fault.nulInPath.text
  | .file fault path =>
      "[Errno " ++ toString fault.number ++ "] " ++ fault.text ++ ": " ++ Text.quoted path
  | .undecodable fault => fault.message
  | .frozenGraph => "Frozen graph can't be modified"
  | .alreadyBuilt => "Graph storage is already built; use a new GraphStorage per build"
  | .unknownPolicy shown => shown ++ " is not a valid ExternalEdgePolicy"
  | .negativeBound => "length bound must be non-negative"
  | .incomparable sign left right =>
      "'" ++ sign ++ "' not supported between instances of '" ++ left ++ "' and '" ++ right ++ "'"
  | .unexpectedOption operation option =>
      operation ++ "() got an unexpected keyword argument '" ++ option ++ "'"
  | .repeatedOption operation option =>
      operation ++ "() got multiple values for argument '" ++ option ++ "'"
  | .notIterable kind => "'" ++ kind ++ "' object is not iterable"
  | .notText index kind =>
      "sequence item " ++ toString index ++ ": expected str instance, " ++ kind ++ " found"
  | .notJoinable kind => "unsupported operand type(s) for /: 'PosixPath' and '" ++ kind ++ "'"
  | .noAttribute kind member => "'" ++ kind ++ "' object has no attribute '" ++ member ++ "'"
  | .invalidSettings problems =>
      toString problems.length ++ " validation errors for Settings: " ++
        Text.join ", " (problems.map fun problem => problem.field ++ " " ++ problem.complaint.name)

end ModuleAtlas
