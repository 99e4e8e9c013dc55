import ModuleAtlas.Json.Basic
import ModuleAtlas.Text.Quoted

/-! # Indented JSON text

Every item and field stands on a line of its own, indented by two spaces for
each level; an empty list or object stays on one line. Within strings only the
quote, the backslash and the control characters below the space are escaped.
-/

namespace ModuleAtlas.Json

/-- The written form of one character of a string. -/
def escapeChar (c : Char) : List Char :=
  if c = '"' then ['\\', '"']
  else if c = '\\' then ['\\', '\\']
  else if c = '\x08' then ['\\', 'b']
  else if c = '\x0c' then ['\\', 'f']
  else if c = '\n' then ['\\', 'n']
  else if c = '\r' then ['\\', 'r']
  else if c = '\t' then ['\\', 't']
  else if c.toNat < 32 then ['\\', 'u'] ++ Text.hexDigits 4 c.toNat
  else [c]

/-- The written form of a string. -/
def writeStr (s : String) : List Char := '"' :: s.toList.flatMap escapeChar ++ ['"']

/-- The decimal digits of a natural number. -/
def writeNat (n : Nat) : List Char := Nat.toDigits 10 n

/-- The written form of an integer. -/
def writeInt : Int → List Char
  | .ofNat n => writeNat n
  | .negSucc n => '-' :: writeNat (n + 1)

/-- The written form of a decimal: its digits and its exponent. -/
def writeDecimal (x : Decimal) : List Char :=
  (if x.negative then ['-'] else []) ++ writeNat x.digits ++ 'e' :: writeInt x.exponent

/-- A new line at the given level. -/
def newLine (level : Nat) : List Char := '\n' :: List.replicate (2 * level) ' '

mutual

/-- The indented text of a value whose first line starts at the given level. -/
def write (level : Nat) : Json → List Char
  | .null => ['n', 'u', 'l', 'l']
  | .bool true => ['t', 'r', 'u', 'e']
  | .bool false => ['f', 'a', 'l', 's', 'e']
  | .int n => writeInt n
  | .real x => writeDecimal x
  | .str s => writeStr s
  | .arr [] => ['[', ']']
  | .arr (item :: items) =>
      '[' :: newLine (level + 1) ++ write (level + 1) item ++ writeItems (level + 1) items ++
        newLine level ++ [']']
  | .obj [] => ['\x7b', '\x7d']
  | .obj ((name, value) :: fields) =>
      '\x7b' :: newLine (level + 1) ++ writeStr name ++ [':', ' '] ++ write (level + 1) value ++
        writeFields (level + 1) fields ++ newLine level ++ ['\x7d']

/-- The items of a list behind its first. -/
def writeItems (level : Nat) : List Json → List Char
  | [] => []
  | item :: items => ',' :: newLine level ++ write level item ++ writeItems level items

/-- The fields of an object behind its first. -/
def writeFields (level : Nat) : List (String × Json) → List Char
  | [] => []
  | (name, value) :: fields =>
      ',' :: newLine level ++ writeStr name ++ [':', ' '] ++ write level value ++
        writeFields level fields

end

/-- The indented text of a value. -/
def pretty (value : Json) : String := String.ofList (write 0 value)

end ModuleAtlas.Json
