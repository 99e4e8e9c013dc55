import ModuleAtlas.Json.Printer
import ModuleAtlas.Number.Shortest
import ModuleAtlas.Text.Search

/-! # Values as they are shown in messages

Messages show texts between quotes, truth values and the missing value by name,
and lists and objects between brackets on one line.
-/

namespace ModuleAtlas.Json

/-- The name of the kind of a value. -/
def kind : Json → String
  | .null => "NoneType"
  | .bool _ => "bool"
  | .int _ => "int"
  | .real _ => "float"
  | .str _ => "str"
  | .arr _ => "list"
  | .obj _ => "dict"

/-- The name of a truth value. -/
def boolName (value : Bool) : String := if value then "True" else "False"

mutual

/-- The text of a value within another. -/
def display : Json → String
  | .null => "None"
  | .bool value => boolName value
  | .int value => toString value
  | .real value => shortestText value.toFloat
  | .str value => Text.quoted value
  | .arr items => "[" ++ Text.join ", " (displayItems items) ++ "]"
  | .obj fields => "\x7b" ++ Text.join ", " (displayFields fields) ++ "\x7d"

/-- The texts of the items of a list. -/
def displayItems : List Json → List String
  | [] => []
  | item :: items => display item :: displayItems items

/-- The texts of the fields of an object. -/
def displayFields : List (String × Json) → List String
  | [] => []
  | (name, value) :: fields => (Text.quoted name ++ ": " ++ display value) :: displayFields fields

end

/-- The text of a value on its own: a text stands for itself. -/
def shown : Json → String
  | .str value => value
  | value => value.display

/-- Whether a value counts as a yes. -/
def isTruthy : Json → Bool
  | .null => false
  | .bool value => value
  | .int value => value ≠ 0
  | .real value => !(value.toFloat == 0)
  | .str value => value ≠ ""
  | .arr items => !items.isEmpty
  | .obj fields => !fields.isEmpty

end ModuleAtlas.Json
