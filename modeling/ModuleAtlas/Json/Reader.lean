import ModuleAtlas.Json.Basic

/-! # Reading JSON text

A text is cut into tokens character by character, and the tokens are fed one by
one to a stack of unfinished lists and objects. Both passes follow the input,
so reading ends on every text.
-/

namespace ModuleAtlas.Json

/-- A token of JSON text. -/
inductive Token where
  | openList
  | closeList
  | openObject
  | closeObject
  | comma
  | colon
  | text (s : String)
  | scalar (value : Json)
  deriving Inhabited

/-- Where the cutting of a text stands. The characters taken so far are kept in
reverse; `high` is a leading surrogate that waits for its partner. -/
inductive Cut where
  | between
  | bare (taken : List Char)
  | text (taken : List Char) (high : Option Nat)
  | escape (taken : List Char) (high : Option Nat)
  | hex (taken : List Char) (high : Option Nat) (digits : List Nat)

/-- The value of a decimal digit. -/
def digit? (c : Char) : Option Nat := if c.isDigit then some (c.toNat - 48) else none

/-- The value of a hexadecimal digit. -/
def hexDigit? (c : Char) : Option Nat :=
  if c.isDigit then some (c.toNat - 48)
  else if 'a' ≤ c ∧ c ≤ 'f' then some (c.toNat - 87)
  else if 'A' ≤ c ∧ c ≤ 'F' then some (c.toNat - 55)
  else none

/-- The number with the given digits, most significant first. -/
def ofDigits (base : Nat) (digits : List Nat) : Nat := digits.foldl (· * base + ·) 0

/-- The natural number that a non-empty run of digits spells. -/
def nat? (chars : List Char) : Option Nat :=
  if chars.isEmpty then none else (chars.mapM digit?).map (ofDigits 10)

/-- The integer that an exponent spells. -/
def exponent? : List Char → Option Int
  | '-' :: rest => (nat? rest).map fun n => -(n : Int)
  | '+' :: rest => (nat? rest).map fun n => (n : Int)
  | rest => (nat? rest).map fun n => (n : Int)

/-- Whether a character starts the exponent of a number. -/
def isExponentMark (c : Char) : Bool := c = 'e' || c = 'E'

/-- The number that an unsigned run of characters spells. -/
def number? (negative : Bool) (chars : List Char) : Option Json := do
  let mantissa := chars.takeWhile (!isExponentMark ·)
  let behind := chars.dropWhile (!isExponentMark ·)
  let whole := mantissa.takeWhile (· ≠ '.')
  let fraction := (mantissa.dropWhile (· ≠ '.')).drop 1
  let digits ← nat? (whole ++ fraction)
  if whole.isEmpty || (mantissa.contains '.' && fraction.isEmpty) then none
  else if behind.isEmpty && !mantissa.contains '.' then
    some (.int (if negative then -(digits : Int) else digits))
  else do
    let exponent ← if behind.isEmpty then some 0 else exponent? (behind.drop 1)
    some (.real ⟨negative, digits, exponent - fraction.length⟩)

/-- The value that a run of bare characters spells. -/
def bare? : List Char → Option Json
  | ['n', 'u', 'l', 'l'] => some .null
  | ['t', 'r', 'u', 'e'] => some (.bool true)
  | ['f', 'a', 'l', 's', 'e'] => some (.bool false)
  | '-' :: rest => number? true rest
  | rest => number? false rest

/-- Whether a character may stand in a literal or a number. -/
def isBare (c : Char) : Bool := c.isAlphanum || c = '-' || c = '+' || c = '.'

/-- The character that a one-letter escape stands for. -/
def escaped? (c : Char) : Option Char :=
  match c with
  | '"' => some '"'
  | '\\' => some '\\'
  | '/' => some '/'
  | 'b' => some '\x08'
  | 'f' => some '\x0c'
  | 'n' => some '\n'
  | 'r' => some '\r'
  | 't' => some '\t'
  | _ => none

/-- One character outside a string: the tokens it completes and where the
cutting stands behind it. -/
def cutBetween (c : Char) : Option (List Token × Cut) :=
  if c = ' ' || c = '\n' || c = '\r' || c = '\t' then some ([], .between)
  else if c = '[' then some ([.openList], .between)
  else if c = ']' then some ([.closeList], .between)
  else if c = '\x7b' then some ([.openObject], .between)
  else if c = '\x7d' then some ([.closeObject], .between)
  else if c = ',' then some ([.comma], .between)
  else if c = ':' then some ([.colon], .between)
  else if c = '"' then some ([], .text [] none)
  else if isBare c then some ([], .bare [c])
  else none

/-- A code unit written as four hexadecimal digits: a character, a leading
surrogate, or the partner that completes one. -/
def cutUnit (taken : List Char) (high : Option Nat) (unit : Nat) : Option Cut :=
  match high with
  | some lead =>
      if 0xDC00 ≤ unit && unit ≤ 0xDFFF then
        some (.text (Char.ofNat (0x10000 + (lead - 0xD800) * 0x400 + (unit - 0xDC00)) :: taken)
          none)
      else none
  | none =>
      if 0xD800 ≤ unit && unit ≤ 0xDBFF then some (.text taken (some unit))
      else if 0xDC00 ≤ unit && unit ≤ 0xDFFF then none
      else some (.text (Char.ofNat unit :: taken) none)

/-- One character of the text: the tokens it completes and where the cutting
stands behind it. -/
def cutStep : Cut → Char → Option (List Token × Cut)
  | .between, c => cutBetween c
  | .bare taken, c =>
      if isBare c then some ([], .bare (c :: taken))
      else do
        let value ← bare? taken.reverse
        let (tokens, next) ← cutBetween c
        some (.scalar value :: tokens, next)
  | .text taken high, c =>
      if c = '\\' then some ([], .escape taken high)
      else if high.isSome then none
      else if c = '"' then some ([.text (String.ofList taken.reverse)], .between)
      else if c.toNat < 32 then none
      else some ([], .text (c :: taken) none)
  | .escape taken high, c =>
      if c = 'u' then some ([], .hex taken high [])
      else if high.isSome then none
      else (escaped? c).map fun char => ([], .text (char :: taken) none)
  | .hex taken high digits, c => do
      let digits := digits ++ [← hexDigit? c]
      if digits.length < 4 then some ([], .hex taken high digits)
      else (cutUnit taken high (ofDigits 16 digits)).map fun next => ([], next)

/-- The tokens of a text, from where the cutting stands. -/
def cutFrom (state : Cut) : List Char → Option (List Token)
  | [] =>
      match state with
      | .between => some []
      | .bare taken => (bare? taken.reverse).map fun value => [.scalar value]
      | _ => none
  | c :: rest => do
      let (tokens, next) ← cutStep state c
      let others ← cutFrom next rest
      some (tokens ++ others)

/-- The tokens of a text. -/
def tokens? (chars : List Char) : Option (List Token) := cutFrom .between chars

/-- An unfinished list or object, its members in reverse. -/
inductive Frame where
  | list (items : List Json)
  | object (fields : List (String × Json))
  | member (fields : List (String × Json)) (name : String)

/-- What the next token may be: a value, a value or the end of a new list, what
follows a value, a name or the end of a new object, a name, or a colon. -/
inductive Expect where
  | value
  | firstItem
  | next
  | firstName
  | name
  | colon

/-- The reading of a value so far: unfinished containers, innermost first, and
the finished value once there is one. -/
structure Reading where
  frames : List Frame := []
  expect : Expect := .value
  result : Option Json := none

/-- Puts a finished value where it belongs. -/
def Reading.accept (value : Json) (frames : List Frame) : Option Reading :=
  match frames with
  | [] => some ⟨[], .next, some value⟩
  | .list items :: frames => some ⟨.list (value :: items) :: frames, .next, none⟩
  | .member fields name :: frames => some ⟨.object ((name, value) :: fields) :: frames, .next, none⟩
  | .object _ :: _ => none

/-- Reads the start of a value. -/
def Reading.start (frames : List Frame) : Token → Option Reading
  | .openList => some ⟨.list [] :: frames, .firstItem, none⟩
  | .openObject => some ⟨.object [] :: frames, .firstName, none⟩
  | .text s => Reading.accept (.str s) frames
  | .scalar value => Reading.accept value frames
  | _ => none

/-- Reads one token. -/
def Reading.step (reading : Reading) (token : Token) : Option Reading :=
  match reading.result, reading.expect, token, reading.frames with
  | some _, _, _, _ => none
  | none, .value, token, frames => Reading.start frames token
  | none, .firstItem, .closeList, .list [] :: frames => Reading.accept (.arr []) frames
  | none, .firstItem, token, frames => Reading.start frames token
  | none, .next, .comma, .list items :: frames => some ⟨.list items :: frames, .value, none⟩
  | none, .next, .closeList, .list items :: frames => Reading.accept (.arr items.reverse) frames
  | none, .next, .comma, .object fields :: frames => some ⟨.object fields :: frames, .name, none⟩
  | none, .next, .closeObject, .object fields :: frames =>
      Reading.accept (.obj fields.reverse) frames
  | none, .firstName, .closeObject, .object [] :: frames => Reading.accept (.obj []) frames
  | none, .firstName, .text name, .object fields :: frames =>
      some ⟨.member fields name :: frames, .colon, none⟩
  | none, .name, .text name, .object fields :: frames =>
      some ⟨.member fields name :: frames, .colon, none⟩
  | none, .colon, .colon, frames => some ⟨frames, .value, none⟩
  | none, _, _, _ => none

/-- The value that a text spells. -/
def read? (s : String) : Option Json := do
  let tokens ← tokens? s.toList
  let reading ← tokens.foldlM Reading.step {}
  reading.result

end ModuleAtlas.Json
