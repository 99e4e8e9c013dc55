/-! # Sets of characters given by their boundaries

A set of code points is written as the increasing list of the points at which
membership changes: the first point that is inside, the first after it that is
outside, and so on.
-/

namespace ModuleAtlas.Text

/-- Whether a point lies in the set with the given boundaries, where `inside`
says whether the points before the first boundary do. -/
def withinFrom (inside : Bool) : List Nat → Nat → Bool
  | [], _ => inside
  | bound :: rest, point => if point < bound then inside else withinFrom (!inside) rest point

/-- Whether a point lies in the set with the given boundaries. -/
def within (bounds : List Nat) (point : Nat) : Bool := withinFrom false bounds point

end ModuleAtlas.Text
