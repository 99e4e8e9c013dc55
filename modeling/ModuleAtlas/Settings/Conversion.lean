import ModuleAtlas.Json.Display
import ModuleAtlas.Settings.Problem
import ModuleAtlas.Text.Blank
import ModuleAtlas.Text.Case

/-! # Conversion of setting values

Settings come as texts or as values of any kind. Numbers and truth values may be
spelled as texts, and a whole number may come with a fraction of zero.
-/

namespace ModuleAtlas.Settings

open Text

/-- Whether a character is an ASCII blank. -/
def isAsciiBlank (c : Char) : Bool := (9 ≤ c.toNat && c.toNat ≤ 13) || c = ' '

/-- Characters without leading and trailing ASCII blanks. -/
def trimAscii (chars : List Char) : List Char :=
  ((chars.dropWhile isAsciiBlank).reverse.dropWhile isAsciiBlank).reverse

/-- The digits at the start of a list of characters, where single underscores
may stand between digits, and what follows them. -/
def digitRun : List Char → List Char × List Char
  | c :: '_' :: d :: rest =>
      if c.isDigit && d.isDigit then
        let (digits, behind) := digitRun (d :: rest)
        (c :: digits, behind)
      else if c.isDigit then ([c], '_' :: d :: rest)
      else ([], c :: '_' :: d :: rest)
  | c :: rest =>
      if c.isDigit then
        let (digits, behind) := digitRun rest
        (c :: digits, behind)
      else ([], c :: rest)
  | [] => ([], [])

/-- The number that decimal digits spell. -/
def natOfDigits (digits : List Char) : Nat :=
  digits.foldl (fun n c => n * 10 + (c.toNat - 48)) 0

/-- A sign at the start of a list of characters: whether it is a minus, and what
follows. -/
def readSign : List Char → Bool × List Char
  | '-' :: rest => (true, rest)
  | '+' :: rest => (false, rest)
  | rest => (false, rest)

/-- The most digits that an integer may be spelled with. -/
def digitLimit : Nat := 4300

/-- The integer that a text spells. -/
def intOfText (s : String) : Except Complaint Int :=
  let (negative, unsigned) := readSign (trimAscii s.toList)
  let (digits, behind) := digitRun unsigned
  let whole := match behind with
    | [] => true
    | '.' :: zeros => zeros.all (· = '0')
    | _ => false
  if digits.isEmpty || !whole then .error .intParsing
  else if digitLimit < digits.length then .error .intParsingSize
  else .ok (if negative then -(natOfDigits digits : Int) else natOfDigits digits)

/-- The integer that a double is, if it is one. -/
def intOfFloat (x : Float) : Except Complaint Int :=
  if x.isNaN || x.isInf then .error .finiteNumber
  else if x.floor != x then .error .intFromFloat
  else if x.abs < 9223372036854775808.0 then .ok x.toInt64.toInt
  else .error .intParsingSize

/-- The integer that a value stands for. -/
def asInt : Json → Except Complaint Int
  | .int n => .ok n
  | .bool value => .ok (if value then 1 else 0)
  | .real x => intOfFloat x.toFloat
  | .str s => intOfText s
  | _ => .error .intType

/-- The words for no. -/
def noWords : List String := ["0", "off", "f", "false", "n", "no"]

/-- The words for yes. -/
def yesWords : List String := ["1", "on", "t", "true", "y", "yes"]

/-- The truth value that a text spells. -/
def boolOfText (s : String) : Except Complaint Bool :=
  if yesWords.contains (lowerCase s) then .ok true
  else if noWords.contains (lowerCase s) then .ok false
  else .error .boolParsing

/-- The truth value that an integer stands for. -/
def boolOfInt (n : Int) : Except Complaint Bool :=
  if n = 0 then .ok false else if n = 1 then .ok true else .error .boolParsing

/-- The truth value that a value stands for. -/
def asBool : Json → Except Complaint Bool
  | .bool value => .ok value
  | .int n => boolOfInt n
  | .real x =>
      match intOfFloat x.toFloat with
      | .ok n => boolOfInt n
      | .error _ => .error .boolType
  | .str s => boolOfText s
  | _ => .error .boolType

/-- The exponent of a decimal, from its mark on; none if there is no mark. -/
def readExponent : List Char → Option Int
  | [] => some 0
  | c :: rest =>
      if c = 'e' || c = 'E' then
        let (negative, unsigned) := readSign rest
        match digitRun unsigned with
        | ([], _) => none
        | (digits, []) =>
            some (if negative then -(natOfDigits digits : Int) else natOfDigits digits)
        | _ => none
      else none

/-- The decimal that unsigned characters spell. -/
def readDecimal (negative : Bool) (chars : List Char) : Option Decimal :=
  let (whole, behind) := digitRun chars
  let (fraction, behind) := match behind with
    | '.' :: rest => digitRun rest
    | _ => ([], behind)
  if whole.isEmpty && fraction.isEmpty then none
  else
    (readExponent behind).map fun exponent =>
      ⟨negative, natOfDigits (whole ++ fraction), exponent - fraction.length⟩

/-- The double that a text spells. -/
def floatOfText (s : String) : Except Complaint Float :=
  let (negative, unsigned) := readSign (trimChars s.toList)
  let word := lowerCase (String.ofList unsigned)
  if word = "inf" || word = "infinity" then
    .ok (if negative then -(1.0 / 0.0) else 1.0 / 0.0)
  else if word = "nan" then .ok (0.0 / 0.0)
  else
    match readDecimal negative unsigned with
    | some x => .ok x.toFloat
    | none => .error .floatParsing

/-- The double that a value stands for. -/
def asFloat : Json → Except Complaint Float
  | .bool value => .ok (if value then 1.0 else 0.0)
  | .int n => .ok (Decimal.mk (n < 0) n.natAbs 0).toFloat
  | .real x => .ok x.toFloat
  | .str s => floatOfText s
  | _ => .error .floatType

/-- The text that a value is. -/
def asText : Json → Except Complaint String
  | .str s => .ok s
  | _ => .error .stringType

/-- The items of a comma-separated text, without blanks around them; empty items
are left out. -/
def splitItems (s : String) : List String := ((splitAt ',' s).map trim).filter (· ≠ "")

/-- A text read as a comma-separated list; any other value stays as it is. -/
def splitList : Json → Json
  | .str s => .strs (splitItems s)
  | value => value

end ModuleAtlas.Settings
