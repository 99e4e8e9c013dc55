/-! # Structured values

The values of the JSON data model, with the fields of an object in the order in
which they were written. A number is an integer or a decimal with a fractional
part or an exponent.
-/

namespace ModuleAtlas

/-- The number `digits · 10 ^ exponent`, with a sign that zero has too. -/
structure Decimal where
  negative : Bool
  digits : Nat
  exponent : Int
  deriving DecidableEq, Repr, Inhabited

/-- A structured value. -/
inductive Json where
  | null
  | bool (value : Bool)
  | int (value : Int)
  | real (value : Decimal)
  | str (value : String)
  | arr (items : List Json)
  | obj (fields : List (String × Json))
  deriving Inhabited, Repr

namespace Json

/-- A natural number. -/
def nat (n : Nat) : Json := .int n

/-- A list of texts. -/
def strs (texts : List String) : Json := .arr (texts.map .str)

/-- The value of the first field with the given name, if this is an object that
has one. -/
def field? (name : String) : Json → Option Json
  | .obj fields => fields.lookup name
  | _ => none

end Json

end ModuleAtlas
