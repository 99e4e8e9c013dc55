import Mathlib.Tactic.SplitIfs
import ModuleAtlas.Json.Printer

/-! # The grammar of JSON text

`ModuleAtlas.Json.Spells` relates a text to the value that it spells. It is stated without
the printer and the reader, and it admits every layout: white space around each value, name
and bracket, every escape of a character, and every form of a number. The indented text of
a value is one of its spellings (`ModuleAtlas.Json.spells_write`).
-/

namespace ModuleAtlas.Json

/-- White space. -/
def IsBlank (text : List Char) : Prop := ∀ c ∈ text, c = ' ' ∨ c = '\n' ∨ c = '\r' ∨ c = '\t'

/-- A non-empty run of decimal digits. -/
def IsDigits (text : List Char) : Prop := text ≠ [] ∧ ∀ c ∈ text, c.isDigit = true

/-- A run of decimal digits in which no zero leads. -/
def IsWhole (text : List Char) : Prop := IsDigits text ∧ (text.head? = some '0' → text = ['0'])

/-- The number that decimal digits spell. -/
def digitsValue (text : List Char) : Nat := Nat.ofDigitChars 10 text 0

/-- The point and the digits behind it, which may be left out. -/
inductive SpellsFraction : List Char → List Char → Prop
  | absent : SpellsFraction [] []
  | present {digits : List Char} (valid : IsDigits digits) : SpellsFraction ('.' :: digits) digits

/-- An exponent, which may be left out. -/
inductive SpellsExponent : List Char → Int → Prop
  | absent : SpellsExponent [] 0
  | unsigned {mark : Char} {digits : List Char} (marked : mark = 'e' ∨ mark = 'E')
      (valid : IsDigits digits) : SpellsExponent (mark :: digits) (digitsValue digits)
  | positive {mark : Char} {digits : List Char} (marked : mark = 'e' ∨ mark = 'E')
      (valid : IsDigits digits) : SpellsExponent (mark :: '+' :: digits) (digitsValue digits)
  | negative {mark : Char} {digits : List Char} (marked : mark = 'e' ∨ mark = 'E')
      (valid : IsDigits digits) :
      SpellsExponent (mark :: '-' :: digits) (-(digitsValue digits : Int))

/-- The sign of a number. -/
def sign (negative : Bool) : List Char := if negative then ['-'] else []

/-- A number is an integer unless it has a fraction or an exponent. -/
inductive SpellsNumber : List Char → Json → Prop
  | int (negative : Bool) {whole : List Char} (valid : IsWhole whole) :
      SpellsNumber (sign negative ++ whole)
        (.int (if negative then -(digitsValue whole : Int) else digitsValue whole))
  | real (negative : Bool) {whole point fraction tail : List Char} {exponent : Int}
      (valid : IsWhole whole) (fractional : SpellsFraction point fraction)
      (scaled : SpellsExponent tail exponent) (written : point ++ tail ≠ []) :
      SpellsNumber (sign negative ++ (whole ++ (point ++ tail)))
        (.real ⟨negative, digitsValue (whole ++ fraction), exponent - fraction.length⟩)

/-- A hexadecimal digit of either case. -/
def IsHexDigit (c : Char) (value : Nat) : Prop :=
  "0123456789abcdef".toList[value]? = some c ∨ "0123456789ABCDEF".toList[value]? = some c

/-- The four digits of a code unit. -/
inductive SpellsUnit : List Char → Nat → Prop
  | mk {c₁ c₂ c₃ c₄ : Char} {n₁ n₂ n₃ n₄ : Nat} (first : IsHexDigit c₁ n₁)
      (second : IsHexDigit c₂ n₂) (third : IsHexDigit c₃ n₃) (fourth : IsHexDigit c₄ n₄) :
      SpellsUnit [c₁, c₂, c₃, c₄] (((n₁ * 16 + n₂) * 16 + n₃) * 16 + n₄)

/-- The escapes of one letter, and what they stand for. -/
def letterEscapes : List (Char × Char) :=
  [('"', '"'), ('\\', '\\'), ('/', '/'), ('b', '\x08'), ('f', '\x0c'), ('n', '\n'), ('r', '\r'),
    ('t', '\t')]

/-- The spellings of a character: itself unless it must be escaped, an escape of one letter,
its code unit, or the two code units of a character beyond the first plane. -/
inductive SpellsChar : List Char → Char → Prop
  | plain {c : Char} (visible : 32 ≤ c.toNat) (unquoted : c ≠ '"') (unescaped : c ≠ '\\') :
      SpellsChar [c] c
  | letter {name c : Char} (listed : (name, c) ∈ letterEscapes) : SpellsChar ['\\', name] c
  | unit {digits : List Char} {c : Char} (spelled : SpellsUnit digits c.toNat) :
      SpellsChar ('\\' :: 'u' :: digits) c
  | pair {lead trail : List Char} {high low : Nat} {c : Char} (first : SpellsUnit lead high)
      (second : SpellsUnit trail low) (leads : 0xD800 ≤ high ∧ high ≤ 0xDBFF)
      (trails : 0xDC00 ≤ low ∧ low ≤ 0xDFFF)
      (whole : c.toNat = 0x10000 + (high - 0xD800) * 0x400 + (low - 0xDC00)) :
      SpellsChar ('\\' :: 'u' :: (lead ++ '\\' :: 'u' :: trail)) c

/-- The characters of a string, one after the other. -/
inductive SpellsChars : List Char → List Char → Prop
  | nil : SpellsChars [] []
  | cons {text rest : List Char} {c : Char} {chars : List Char} (first : SpellsChar text c)
      (others : SpellsChars rest chars) : SpellsChars (text ++ rest) (c :: chars)

/-- A string between its quotes. -/
def SpellsString (text : List Char) (s : String) : Prop :=
  ∃ inner, SpellsChars inner s.toList ∧ text = '"' :: (inner ++ ['"'])

/-- The name of a field, with white space around it. -/
def SpellsName (text : List Char) (name : String) : Prop :=
  ∃ before inner after, IsBlank before ∧ SpellsString inner name ∧ IsBlank after ∧
    text = before ++ (inner ++ after)

/-- Texts with commas between them. -/
def commaSeparated : List (List Char) → List Char
  | [] => []
  | text :: texts => text ++ texts.flatMap (',' :: ·)

/-- A field of an object, as it is written and as it is meant. -/
structure Member where
  nameText : List Char
  name : String
  valueText : List Char
  value : Json

namespace Member

/-- The text of a field. -/
def text (field : Member) : List Char := field.nameText ++ ':' :: field.valueText

/-- What a field means. -/
def meaning (field : Member) : String × Json := (field.name, field.value)

end Member

/-- A text spells a value, with white space around it. -/
inductive Spells : List Char → Json → Prop
  | padded {before text after : List Char} {value : Json} (blankBefore : IsBlank before)
      (inner : Spells text value) (blankAfter : IsBlank after) :
      Spells (before ++ (text ++ after)) value
  | null : Spells ['n', 'u', 'l', 'l'] .null
  | true : Spells ['t', 'r', 'u', 'e'] (.bool true)
  | false : Spells ['f', 'a', 'l', 's', 'e'] (.bool false)
  | number {text : List Char} {value : Json} (spelled : SpellsNumber text value) :
      Spells text value
  | str {text : List Char} {s : String} (spelled : SpellsString text s) : Spells text (.str s)
  | arr {items : List (List Char × Json)} {gap : List Char}
      (each : ∀ item ∈ items, Spells item.1 item.2) (blank : IsBlank gap) :
      Spells ('[' :: (commaSeparated (items.map Prod.fst) ++ (gap ++ [']'])))
        (.arr (items.map Prod.snd))
  | obj {fields : List Member} {gap : List Char}
      (names : ∀ field ∈ fields, SpellsName field.nameText field.name)
      (values : ∀ field ∈ fields, Spells field.valueText field.value) (blank : IsBlank gap) :
      Spells ('\x7b' :: (commaSeparated (fields.map Member.text) ++ (gap ++ ['\x7d'])))
        (.obj (fields.map Member.meaning))

/-- What holds of every value if it is carried from the items of a list and from the values
of an object to the whole. -/
theorem induction {motive : Json → Prop} (null : motive .null) (bool : ∀ b, motive (.bool b))
    (int : ∀ n, motive (.int n)) (real : ∀ x, motive (.real x)) (str : ∀ s, motive (.str s))
    (arr : ∀ items, (∀ item ∈ items, motive item) → motive (.arr items))
    (obj : ∀ fields, (∀ field ∈ fields, motive field.2) → motive (.obj fields)) (value : Json) :
    motive value := by
  have none : ∀ item ∈ ([] : List Json), motive item := List.forall_mem_nil _
  have noField : ∀ field ∈ ([] : List (String × Json)), motive field.2 := List.forall_mem_nil _
  exact @Json.rec motive (fun items => ∀ item ∈ items, motive item)
    (fun fields => ∀ field ∈ fields, motive field.2) (fun field => motive field.2)
    null bool int real str arr obj
    none (fun _ _ first others => List.forall_mem_cons.mpr ⟨first, others⟩)
    noField (fun _ _ first others => List.forall_mem_cons.mpr ⟨first, others⟩)
    (fun _ _ inner => inner) value

section Written

private theorem isBlank_newLine (level : Nat) : IsBlank (newLine level) := by
  intro c member
  rcases List.mem_cons.mp member with rfl | space
  · exact Or.inr (Or.inl rfl)
  · exact Or.inl (List.eq_of_mem_replicate space)

private theorem isHexDigit_digitChar {n : Nat} (small : n < 16) :
    IsHexDigit (Nat.digitChar n) n := by
  have all : ∀ n < 16, "0123456789abcdef".toList[n]? = some (Nat.digitChar n) := by decide
  exact Or.inl (all n small)

private theorem spellsUnit_hexDigits {n : Nat} (small : n < 65536) :
    SpellsUnit (Text.hexDigits 4 n) n := by
  have digit (k : Nat) : IsHexDigit (Nat.digitChar (k % 16)) (k % 16) :=
    isHexDigit_digitChar (Nat.mod_lt k (by omega))
  have spelled := SpellsUnit.mk (digit (n / 16 / 16 / 16)) (digit (n / 16 / 16)) (digit (n / 16))
    (digit n)
  have whole : ((n / 16 / 16 / 16 % 16 * 16 + n / 16 / 16 % 16) * 16 + n / 16 % 16) * 16 + n % 16 =
      n := by omega
  rwa [whole] at spelled

private theorem spellsChar_escapeChar (c : Char) : SpellsChar (escapeChar c) c := by
  unfold escapeChar
  split_ifs with quote backslash _ _ _ _ _ control
  any_goals
    subst c
    exact .letter (by decide)
  · exact .unit (spellsUnit_hexDigits (by omega))
  · exact .plain (by omega) quote backslash

private theorem spellsChars_flatMap (chars : List Char) :
    SpellsChars (chars.flatMap escapeChar) chars := by
  induction chars with
  | nil => exact .nil
  | cons c chars ih =>
      rw [List.flatMap_cons]
      exact .cons (spellsChar_escapeChar c) ih

private theorem spellsString_writeStr (s : String) : SpellsString (writeStr s) s :=
  ⟨_, spellsChars_flatMap s.toList, rfl⟩

private theorem head?_toDigits {n : Nat} (positive : 0 < n) :
    (Nat.toDigits 10 n).head? ≠ some '0' := by
  induction n using Nat.strongRecOn with
  | ind n ih =>
      by_cases small : n < 10
      · rw [Nat.toDigits_of_lt_base small]
        simp only [List.head?_cons, ne_eq, Option.some.injEq, Nat.digitChar_eq_zero]
        omega
      · have leading := ih (n / 10) (by omega) (by omega)
        rw [Nat.toDigits_of_base_le (by omega) (by omega)]
        cases shape : Nat.toDigits 10 (n / 10) with
        | nil => exact absurd shape Nat.toDigits_ne_nil
        | cons first rest =>
            rw [shape] at leading
            exact leading

private theorem isDigits_writeNat (n : Nat) : IsDigits (writeNat n) :=
  ⟨Nat.toDigits_ne_nil, fun _ => Nat.isDigit_of_mem_toDigits (by omega) (by omega)⟩

private theorem isWhole_writeNat (n : Nat) : IsWhole (writeNat n) := by
  refine ⟨isDigits_writeNat n, fun zero => ?_⟩
  rcases Nat.eq_zero_or_pos n with rfl | positive
  · rfl
  · exact absurd zero (head?_toDigits positive)

private theorem digitsValue_writeNat (n : Nat) : digitsValue (writeNat n) = n :=
  Nat.ofDigitChars_ten_toDigits

private theorem spellsNumber_writeInt (n : Int) : SpellsNumber (writeInt n) (.int n) := by
  cases n with
  | ofNat n =>
      have spelled := SpellsNumber.int false (isWhole_writeNat n)
      rwa [digitsValue_writeNat] at spelled
  | negSucc n =>
      have spelled := SpellsNumber.int true (isWhole_writeNat (n + 1))
      rwa [digitsValue_writeNat] at spelled

private theorem spellsExponent_writeInt (n : Int) : SpellsExponent ('e' :: writeInt n) n := by
  cases n with
  | ofNat n =>
      have spelled := SpellsExponent.unsigned (Or.inl rfl) (isDigits_writeNat n)
      rwa [digitsValue_writeNat] at spelled
  | negSucc n =>
      have spelled := SpellsExponent.negative (Or.inl rfl) (isDigits_writeNat (n + 1))
      rwa [digitsValue_writeNat] at spelled

private theorem spellsNumber_writeDecimal (x : Decimal) :
    SpellsNumber (writeDecimal x) (.real x) := by
  have spelled := SpellsNumber.real x.negative (isWhole_writeNat x.digits) .absent
    (spellsExponent_writeInt x.exponent) (List.cons_ne_nil _ _)
  rw [List.append_nil, digitsValue_writeNat] at spelled
  simpa [writeDecimal, sign] using spelled

private theorem writeItems_eq (level : Nat) (items : List Json) :
    writeItems level items =
      items.flatMap fun item => ',' :: (newLine level ++ write level item) := by
  induction items with
  | nil => rw [writeItems, List.flatMap_nil]
  | cons item items ih => rw [writeItems, List.flatMap_cons, ih]; rfl

/-- A field of indented text. -/
def writtenField (level : Nat) (field : String × Json) : Member where
  nameText := newLine level ++ (writeStr field.1 ++ [])
  name := field.1
  valueText := [' '] ++ (write level field.2 ++ [])
  value := field.2

private theorem writeFields_eq (level : Nat) (fields : List (String × Json)) :
    writeFields level fields =
      fields.flatMap fun field => ',' :: (writtenField level field).text := by
  induction fields with
  | nil => rw [writeFields, List.flatMap_nil]
  | cons field fields ih =>
      rw [writeFields, List.flatMap_cons, ih]
      simp [writtenField, Member.text]

private theorem isBlank_nil : IsBlank [] := List.forall_mem_nil _

/-- The indented text of a value spells it. -/
theorem spells_write (value : Json) (level : Nat) : Spells (write level value) value := by
  induction value using Json.induction generalizing level with
  | null => rw [write]; exact .null
  | bool b => cases b <;> rw [write] <;> constructor
  | int n => rw [write]; exact .number (spellsNumber_writeInt n)
  | real x => rw [write]; exact .number (spellsNumber_writeDecimal x)
  | str s => rw [write]; exact .str (spellsString_writeStr s)
  | arr items ih =>
      cases items with
      | nil =>
          rw [write]
          exact @Spells.arr [] [] (List.forall_mem_nil _) isBlank_nil
      | cons first items =>
          let line (item : Json) : List Char × Json :=
            (newLine (level + 1) ++ (write (level + 1) item ++ []), item)
          have each : ∀ entry ∈ (first :: items).map line, Spells entry.1 entry.2 := by
            intro entry member
            obtain ⟨item, listed, rfl⟩ := List.mem_map.mp member
            exact .padded (isBlank_newLine _) (ih item listed (level + 1)) isBlank_nil
          have spelled := Spells.arr each (isBlank_newLine level)
          rw [write, writeItems_eq]
          simpa [commaSeparated, line, List.flatMap_map, Function.comp_def] using spelled
  | obj fields ih =>
      cases fields with
      | nil =>
          rw [write]
          exact @Spells.obj [] [] (List.forall_mem_nil _) (List.forall_mem_nil _) isBlank_nil
      | cons first fields =>
          have names : ∀ field ∈ (first :: fields).map (writtenField (level + 1)),
              SpellsName field.nameText field.name := by
            intro field member
            obtain ⟨origin, -, rfl⟩ := List.mem_map.mp member
            exact ⟨_, _, _, isBlank_newLine _, spellsString_writeStr _, isBlank_nil, rfl⟩
          have values : ∀ field ∈ (first :: fields).map (writtenField (level + 1)),
              Spells field.valueText field.value := by
            intro field member
            obtain ⟨origin, listed, rfl⟩ := List.mem_map.mp member
            refine .padded ?_ (ih origin listed (level + 1)) isBlank_nil
            exact fun c space => Or.inl (List.mem_singleton.mp space)
          have spelled := Spells.obj names values (isBlank_newLine level)
          rw [write, writeFields_eq]
          simpa [commaSeparated, writtenField, Member.text, Member.meaning, List.flatMap_map,
            Function.comp_def] using spelled

end Written

end ModuleAtlas.Json
