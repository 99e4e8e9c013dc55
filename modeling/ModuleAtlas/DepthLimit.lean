import ModuleAtlas.Failure
import ModuleAtlas.Json.Display

/-! # Depth limits -/

namespace ModuleAtlas

/-- How far from its start a scan may go. A limit that is no number fails when
it is first compared. -/
inductive DepthLimit where
  | unlimited
  | atMost (depth : Int)
  | other (value : Json)

namespace DepthLimit

/-- The limit that a value asks for. -/
def ofJson : Json → DepthLimit
  | .null => .unlimited
  | .int depth => .atMost depth
  | value => .other value

/-- Whether a depth lies beyond a limit. -/
def isExceededBy (limit : DepthLimit) (depth : Nat) : Except Failure Bool :=
  match limit with
  | .unlimited => .ok false
  | .atMost bound => .ok (decide (bound < depth))
  | .other (.bool bound) => .ok (decide (bound.toNat < depth))
  | .other (.real bound) => .ok (decide (bound.toFloat < depth.toFloat))
  | .other value => .error (.incomparable ">" "int" value.kind)

/-- The text of a limit, if there is one. -/
def shown : DepthLimit → Option String
  | .unlimited => none
  | .atMost bound => some (toString bound)
  | .other value => some value.shown

end DepthLimit

end ModuleAtlas
