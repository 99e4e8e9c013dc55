import ModuleAtlas.Json.Reader
import ModuleAtlas.Proofs.Json.Grammar

/-! # Cutting what the grammar admits

A text that spells a value is cut into the tokens of the value, whatever its layout
(`ModuleAtlas.Json.cuts_of_spells`). A literal or a number ends only where a character
follows that cannot continue it, so each text is cut before a rest that ends it.
-/

namespace ModuleAtlas.Json

mutual

/-- The tokens of a value. -/
def tokens : Json → List Token
  | .null => [.scalar .null]
  | .bool b => [.scalar (.bool b)]
  | .int n => [.scalar (.int n)]
  | .real x => [.scalar (.real x)]
  | .str s => [.text s]
  | .arr [] => [.openList, .closeList]
  | .arr (item :: items) => .openList :: (item.tokens ++ (itemTokens items ++ [.closeList]))
  | .obj [] => [.openObject, .closeObject]
  | .obj ((name, value) :: fields) =>
      .openObject :: .text name :: .colon ::
        (value.tokens ++ (fieldTokens fields ++ [.closeObject]))

/-- The tokens of the items of a list behind its first. -/
def itemTokens : List Json → List Token
  | [] => []
  | item :: items => .comma :: (item.tokens ++ itemTokens items)

/-- The tokens of the fields of an object behind its first. -/
def fieldTokens : List (String × Json) → List Token
  | [] => []
  | (name, value) :: fields =>
      .comma :: .text name :: .colon :: (value.tokens ++ fieldTokens fields)

end

section Digits

variable {text : List Char}

private theorem nat?_of_isDigits (valid : IsDigits text) : nat? text = some (digitsValue text) := by
  have values : ∀ chars : List Char, (∀ c ∈ chars, c.isDigit = true) →
      chars.mapM digit? = some (chars.map fun c => c.toNat - 48) := by
    intro chars all
    induction chars with
    | nil => rfl
    | cons c chars ih =>
        obtain ⟨digit, others⟩ := List.forall_mem_cons.mp all
        rw [List.mapM_cons, ih others, digit?, if_pos digit]
        rfl
  have spelled : ofDigits 10 (text.map fun c => c.toNat - 48) = digitsValue text := by
    unfold ofDigits digitsValue
    rw [Nat.ofDigitChars_eq_foldl, List.foldl_map]
    congr
    funext total c
    rw [Nat.mul_comm]
    rfl
  unfold nat?
  rw [if_neg (by simpa using valid.1), values text valid.2, Option.map_some, spelled]

private theorem IsHexDigit.hexDigit? {c : Char} {n : Nat} (spelled : IsHexDigit c n) :
    hexDigit? c = some n := by
  have lower : ∀ n < 16, "0123456789abcdef".toList[n]?.bind Json.hexDigit? = some n := by decide
  have upper : ∀ n < 16, "0123456789ABCDEF".toList[n]?.bind Json.hexDigit? = some n := by decide
  rcases spelled with found | found
  · obtain ⟨bound, -⟩ := List.getElem?_eq_some_iff.mp found
    have known := lower n bound
    rwa [found] at known
  · obtain ⟨bound, -⟩ := List.getElem?_eq_some_iff.mp found
    have known := upper n bound
    rwa [found] at known

end Digits

section Numbers

/-- Where the members of a list stop to satisfy a test, the list is cut in two. -/
theorem span_append {test : Char → Bool} {front back : List Char}
    (pass : ∀ c ∈ front, test c = true) (stop : ∀ c ∈ back.head?, test c = false) :
    (front ++ back).takeWhile test = front ∧ (front ++ back).dropWhile test = back := by
  rw [List.takeWhile_append_of_pos pass, List.dropWhile_append_of_pos pass]
  cases back with
  | nil => simp only [List.takeWhile_nil, List.append_nil, List.dropWhile_nil, and_self]
  | cons c back =>
      simp only [stop c rfl, Bool.false_eq_true, not_false_eq_true, List.takeWhile_cons_of_neg,
        List.append_nil, List.dropWhile_cons_of_neg, and_self]

private theorem isExponentMark_of_isDigit {c : Char} (digit : c.isDigit = true) :
    isExponentMark c = false := by
  unfold isExponentMark
  rw [Bool.or_eq_false_iff, decide_eq_false_iff_not, decide_eq_false_iff_not]
  constructor <;> rintro rfl <;> cases digit

private theorem ne_point_of_isDigit {c : Char} (digit : c.isDigit = true) : c ≠ '.' := by
  rintro rfl
  cases digit

section Fraction

variable {whole point fraction tail : List Char}

private theorem SpellsFraction.isDigits (fractional : SpellsFraction point fraction)
    (valid : IsDigits whole) : IsDigits (whole ++ fraction) := by
  refine ⟨List.append_ne_nil_of_left_ne_nil valid.1 fraction, fun c member => ?_⟩
  rcases List.mem_append.mp member with before | behind
  · exact valid.2 c before
  · cases fractional with
    | absent => cases behind
    | present digits => exact digits.2 c behind

private theorem SpellsFraction.unmarked (fractional : SpellsFraction point fraction)
    (valid : IsDigits whole) : ∀ c ∈ whole ++ point, (!isExponentMark c) = true := by
  intro c member
  rw [Bool.not_eq_true']
  rcases List.mem_append.mp member with before | behind
  · exact isExponentMark_of_isDigit (valid.2 c before)
  · cases fractional with
    | absent => cases behind
    | present digits =>
        rcases List.mem_cons.mp behind with rfl | digit
        · rfl
        · exact isExponentMark_of_isDigit (digits.2 c digit)

/-- A mantissa is taken apart at its point. -/
theorem SpellsFraction.split (fractional : SpellsFraction point fraction) (valid : IsDigits whole) :
    (whole ++ point).takeWhile (fun c => decide (c ≠ '.')) = whole ∧
      ((whole ++ point).dropWhile (fun c => decide (c ≠ '.'))).drop 1 = fraction ∧
      (whole ++ point).contains '.' = !point.isEmpty ∧
      (!point.isEmpty && fraction.isEmpty) = false := by
  have pass : ∀ c ∈ whole, decide (c ≠ '.') = true := by
    intro c member
    exact decide_eq_true (ne_point_of_isDigit (valid.2 c member))
  have unpointed : '.' ∉ whole := fun member => ne_point_of_isDigit (valid.2 _ member) rfl
  cases fractional with
  | absent =>
      obtain ⟨before, after⟩ := @span_append (fun c => decide (c ≠ '.')) whole [] pass (by simp)
      exact ⟨before, by rw [after]; rfl, by simpa using unpointed, rfl⟩
  | @present fraction digits =>
      obtain ⟨before, after⟩ :=
        @span_append (fun c => decide (c ≠ '.')) whole ('.' :: fraction) pass (by simp)
      exact ⟨before, by rw [after]; rfl, by simp, by simpa using digits.1⟩

/-- A number is taken apart where its exponent starts and at its point. -/
theorem number?_append (negative : Bool) (valid : IsDigits whole)
    (fractional : SpellsFraction point fraction)
    (marked : ∀ c ∈ tail.head?, isExponentMark c = true) :
    number? negative (whole ++ (point ++ tail)) =
      if point ++ tail = [] then
        some (.int (if negative then -(digitsValue (whole ++ fraction) : Int)
          else digitsValue (whole ++ fraction)))
      else (if tail.isEmpty then some 0 else exponent? (tail.drop 1)).bind fun exponent =>
        some (.real ⟨negative, digitsValue (whole ++ fraction), exponent - fraction.length⟩) := by
  have stop : ∀ c ∈ tail.head?, (!isExponentMark c) = false := by
    intro c first
    rw [marked c first]
    rfl
  obtain ⟨mantissa, behind⟩ := span_append (fractional.unmarked valid) stop
  obtain ⟨before, after, pointed, complete⟩ := fractional.split valid
  have nonempty : whole.isEmpty = false := by simpa using valid.1
  unfold number?
  rw [← List.append_assoc]
  simp only [mantissa, behind, before, after, pointed, complete, nonempty,
    nat?_of_isDigits (fractional.isDigits valid)]
  cases point <;> cases tail <;> simp

end Fraction

private theorem exponent?_of_isDigits {digits : List Char} (valid : IsDigits digits) :
    exponent? digits = some (digitsValue digits : Int) := by
  unfold exponent?
  split
  · exact absurd (valid.2 '-' List.mem_cons_self) (by decide)
  · exact absurd (valid.2 '+' List.mem_cons_self) (by decide)
  · rw [nat?_of_isDigits valid]
    rfl

private theorem exponent?_of_spells {tail : List Char} {exponent : Int}
    (scaled : SpellsExponent tail exponent) :
    (∀ c ∈ tail.head?, isExponentMark c = true) ∧
      (if tail.isEmpty then some 0 else exponent? (tail.drop 1)) = some exponent := by
  have mark {c : Char} (marked : c = 'e' ∨ c = 'E') (rest : List Char) :
      ∀ first ∈ (c :: rest).head?, isExponentMark first = true := by
    intro first same
    cases same
    rcases marked with rfl | rfl <;> rfl
  cases scaled with
  | absent => exact ⟨by simp, rfl⟩
  | unsigned marked valid => exact ⟨mark marked _, exponent?_of_isDigits valid⟩
  | positive marked valid => exact ⟨mark marked _, by simp [exponent?, nat?_of_isDigits valid]⟩
  | negative marked valid => exact ⟨mark marked _, by simp [exponent?, nat?_of_isDigits valid]⟩

private theorem bare?_sign (negative : Bool) {whole : List Char} (valid : IsDigits whole)
    (rest : List Char) :
    bare? (sign negative ++ (whole ++ rest)) = number? negative (whole ++ rest) := by
  cases negative with
  | true => rfl
  | false =>
      obtain ⟨first, others, rfl⟩ := List.exists_cons_of_ne_nil valid.1
      have different {c : Char} {text : List Char} (letter : c.isDigit = false) :
          first :: (others ++ rest) ≠ c :: text := by
        intro same
        have digit := valid.2 first List.mem_cons_self
        rw [(List.cons.inj same).1, letter] at digit
        cases digit
      change bare? (first :: (others ++ rest)) = _
      unfold bare?
      split
      · next same => exact absurd same (different rfl)
      · next same => exact absurd same (different rfl)
      · next same => exact absurd same (different rfl)
      · next same => exact absurd same (different rfl)
      · rfl

private theorem bare?_of_spellsNumber {text : List Char} {value : Json}
    (spelled : SpellsNumber text value) : bare? text = some value := by
  cases spelled with
  | int negative valid =>
      have signed := bare?_sign negative valid.1 ([] ++ [])
      rw [number?_append negative valid.1 .absent (by simp)] at signed
      simpa only [List.append_nil, ↓reduceIte] using signed
  | real negative valid fractional scaled written =>
      obtain ⟨marked, exponent⟩ := exponent?_of_spells scaled
      rw [bare?_sign negative valid.1, number?_append negative valid.1 fractional marked,
        if_neg written, exponent, Option.bind_some]

private theorem isBare_of_isDigit {c : Char} (digit : c.isDigit = true) : isBare c = true := by
  simp [isBare, Char.isAlphanum, digit]

private theorem SpellsFraction.isBare {point fraction : List Char}
    (fractional : SpellsFraction point fraction) : ∀ c ∈ point, isBare c = true := by
  cases fractional with
  | absent => exact List.forall_mem_nil _
  | present valid =>
      exact List.forall_mem_cons.mpr ⟨rfl, fun c member => isBare_of_isDigit (valid.2 c member)⟩

private theorem SpellsExponent.isBare {tail : List Char} {exponent : Int}
    (scaled : SpellsExponent tail exponent) : ∀ c ∈ tail, isBare c = true := by
  have mark {c : Char} (marked : c = 'e' ∨ c = 'E') : Json.isBare c = true := by
    rcases marked with rfl | rfl <;> rfl
  have digits {text : List Char} (valid : IsDigits text) : ∀ c ∈ text, Json.isBare c = true :=
    fun c member => isBare_of_isDigit (valid.2 c member)
  cases scaled with
  | absent => exact List.forall_mem_nil _
  | unsigned marked valid => exact List.forall_mem_cons.mpr ⟨mark marked, digits valid⟩
  | positive marked valid =>
      exact List.forall_mem_cons.mpr ⟨mark marked, List.forall_mem_cons.mpr ⟨rfl, digits valid⟩⟩
  | negative marked valid =>
      exact List.forall_mem_cons.mpr ⟨mark marked, List.forall_mem_cons.mpr ⟨rfl, digits valid⟩⟩

private theorem isBare_sign (negative : Bool) : ∀ c ∈ sign negative, isBare c = true := by
  cases negative with
  | false => exact List.forall_mem_nil _
  | true => exact List.forall_mem_singleton.mpr rfl

private theorem isBare_of_spellsNumber {text : List Char} {value : Json}
    (spelled : SpellsNumber text value) : text ≠ [] ∧ ∀ c ∈ text, isBare c = true := by
  cases spelled with
  | int negative valid =>
      refine ⟨List.append_ne_nil_of_right_ne_nil _ valid.1.1, List.forall_mem_append.mpr ?_⟩
      exact ⟨isBare_sign negative, fun c member => isBare_of_isDigit (valid.1.2 c member)⟩
  | real negative valid fractional scaled written =>
      refine ⟨List.append_ne_nil_of_right_ne_nil _ (List.append_ne_nil_of_left_ne_nil valid.1.1 _),
        List.forall_mem_append.mpr ⟨isBare_sign negative, List.forall_mem_append.mpr ?_⟩⟩
      exact ⟨fun c member => isBare_of_isDigit (valid.1.2 c member),
        List.forall_mem_append.mpr ⟨fractional.isBare, scaled.isBare⟩⟩

end Numbers

/-- No character of a literal or a number follows. -/
def Ends (rest : List Char) : Prop := ∀ c ∈ rest.head?, isBare c = false

/-- A text is cut into tokens, in front of every rest that ends it. -/
def Cuts (text : List Char) (tokens : List Token) : Prop :=
  ∀ rest, Ends rest →
    cutFrom .between (text ++ rest) = (cutFrom .between rest).map (tokens ++ ·)

section Layout

variable {text more gap : List Char} {tokens others : List Token}

private theorem map_append_map (tokens others : List Token) (cut : Option (List Token)) :
    (cut.map (others ++ ·)).map (tokens ++ ·) = cut.map (tokens ++ others ++ ·) := by
  cases cut with
  | none => rfl
  | some last => simp only [Option.map_some, List.append_assoc]

private theorem cutFrom_cons {state next : Cut} {c : Char}
    (stepped : cutStep state c = some (tokens, next)) (rest : List Char) :
    cutFrom state (c :: rest) = (cutFrom next rest).map (tokens ++ ·) := by
  rw [cutFrom, stepped]
  cases found : cutFrom next rest <;> simp [found]

private theorem cutFrom_skip {state next : Cut} {c : Char}
    (stepped : cutStep state c = some ([], next))
    (rest : List Char) : cutFrom state (c :: rest) = cutFrom next rest := by
  rw [cutFrom_cons stepped]
  exact Option.map_id'

private theorem Ends.append (ends : Ends text) (later : Ends more) : Ends (text ++ more) := by
  cases text with
  | nil => exact later
  | cons c text => exact ends

/-- The end of the text ends every bare token. -/
theorem ends_nil : Ends [] := by simp [Ends]

private theorem ends_cons {c : Char} (ends : isBare c = false) (rest : List Char) :
    Ends (c :: rest) := by
  intro first same
  cases same
  exact ends

private theorem Cuts.append (first : Cuts text tokens) (second : Cuts more others)
    (ends : Ends more) :
    Cuts (text ++ more) (tokens ++ others) := by
  intro rest later
  rw [List.append_assoc, first _ (ends.append later), second rest later, map_append_map]

private theorem cuts_nil : Cuts [] [] := fun _ _ => Option.map_id'.symm

/-- A character that completes its tokens at once is cut off. -/
theorem Cuts.cons {c : Char} (inner : Cuts text others)
    (stepped : cutStep .between c = some (tokens, .between)) :
    Cuts (c :: text) (tokens ++ others) := by
  intro rest later
  rw [List.cons_append, cutFrom_cons stepped, inner rest later, map_append_map]

private theorem Cuts.mark {c : Char} {token : Token} (inner : Cuts text others)
    (stepped : cutStep .between c = some ([token], .between)) :
    Cuts (c :: text) (token :: others) :=
  inner.cons stepped

private theorem Cuts.blank_append (inner : Cuts text tokens) (blank : IsBlank gap) :
    Cuts (gap ++ text) tokens := by
  induction gap with
  | nil => exact inner
  | cons c gap ih =>
      obtain ⟨space, others⟩ := List.forall_mem_cons.mp blank
      have skipped : cutStep .between c = some ([], .between) := by
        rcases space with rfl | rfl | rfl | rfl <;> rfl
      exact (ih others).cons skipped

private theorem ends_of_isBlank (blank : IsBlank gap) : Ends gap := by
  intro c first
  have space := blank c (List.mem_of_mem_head? first)
  rcases space with rfl | rfl | rfl | rfl <;> rfl

end Layout

section Scalars

private theorem cutBetween_of_isBare {c : Char} (bare : isBare c = true) :
    cutBetween c = some ([], .bare [c]) := by
  have different {mark : Char} (plain : isBare mark = false) : c ≠ mark := by
    rintro rfl
    rw [plain] at bare
    cases bare
  unfold cutBetween
  simp only [different (rfl : isBare ' ' = false), different (rfl : isBare '\n' = false),
    different (rfl : isBare '\r' = false), different (rfl : isBare '\t' = false),
    different (rfl : isBare '[' = false), different (rfl : isBare ']' = false),
    different (rfl : isBare '\x7b' = false), different (rfl : isBare '\x7d' = false),
    different (rfl : isBare ',' = false), different (rfl : isBare ':' = false),
    different (rfl : isBare '"' = false), bare, decide_false, Bool.or_self, if_true,
    Bool.false_eq_true, if_false]

/-- A run of bare characters goes on until one follows that is none. -/
theorem cutFrom_bare {text rest taken : List Char} {value : Json}
    (bare : ∀ c ∈ text, isBare c = true) (ends : Ends rest)
    (spelled : bare? (taken.reverse ++ text) = some value) :
    cutFrom (.bare taken) (text ++ rest) = (cutFrom .between rest).map ([.scalar value] ++ ·) := by
  induction text generalizing taken with
  | nil =>
      rw [List.append_nil] at spelled
      cases rest with
      | nil => simp [cutFrom, spelled]
      | cons c rest =>
          have other := ends c rfl
          have closing : cutStep (.bare taken) c =
              (cutStep .between c).map fun cut => (.scalar value :: cut.1, cut.2) := by
            simp only [cutStep, other, spelled, Bool.false_eq_true, if_false]
            cases cutBetween c <;> rfl
          cases stepped : cutStep .between c with
          | none =>
              rw [stepped] at closing
              rw [List.nil_append, cutFrom, cutFrom, closing, stepped]
              rfl
          | some cut =>
              rw [stepped] at closing
              rw [List.nil_append, cutFrom_cons closing, cutFrom_cons stepped, map_append_map]
              rfl
  | cons c text ih =>
      obtain ⟨first, others⟩ := List.forall_mem_cons.mp bare
      have taking : cutStep (.bare taken) c = some ([], .bare (c :: taken)) := if_pos first
      rw [List.cons_append, cutFrom_skip taking]
      exact ih others (by simpa using spelled)

private theorem cuts_scalar {text : List Char} {value : Json} (nonempty : text ≠ [])
    (bare : ∀ c ∈ text, isBare c = true) (spelled : bare? text = some value) :
    Cuts text [.scalar value] := by
  intro rest ends
  obtain ⟨first, others, rfl⟩ := List.exists_cons_of_ne_nil nonempty
  obtain ⟨start, follow⟩ := List.forall_mem_cons.mp bare
  have started : cutStep .between first = some ([], .bare [first]) := cutBetween_of_isBare start
  rw [List.cons_append, cutFrom_skip started]
  exact cutFrom_bare follow ends spelled

end Scalars

section Strings

variable {rest : List Char} {taken : List Char}

private theorem cutFrom_unit {digits : List Char} {n : Nat} {high : Option Nat} {next : Cut}
    (spelled : SpellsUnit digits n) (cut : cutUnit taken high n = some next) :
    cutFrom (.hex taken high []) (digits ++ rest) = cutFrom next rest := by
  obtain ⟨first, second, third, fourth⟩ := spelled
  have digit {c : Char} {n : Nat} {before : List Nat} (spelled : IsHexDigit c n)
      (short : before.length < 3) :
      cutStep (.hex taken high before) c = some ([], .hex taken high (before ++ [n])) := by
    simp [cutStep, spelled.hexDigit?, show before.length + 1 < 4 by omega]
  rename_i c₁ c₂ c₃ c₄ n₁ n₂ n₃ n₄
  have last : cutStep (.hex taken high [n₁, n₂, n₃]) c₄ = some ([], next) := by
    simp [cutStep, fourth.hexDigit?, ofDigits, cut]
  exact (cutFrom_skip (digit first (by simp)) _).trans
    ((cutFrom_skip (digit second (by simp)) _).trans
    ((cutFrom_skip (digit third (by simp)) _).trans (cutFrom_skip last _)))

private theorem cutFrom_char {text : List Char} {c : Char} (spelled : SpellsChar text c) :
    cutFrom (.text taken none) (text ++ rest) = cutFrom (.text (c :: taken) none) rest := by
  have escape (high : Option Nat) :
      cutStep (.text taken high) '\\' = some ([], .escape taken high) := rfl
  have coded (high : Option Nat) :
      cutStep (.escape taken high) 'u' = some ([], .hex taken high []) := rfl
  cases spelled with
  | plain visible unquoted unescaped =>
      apply cutFrom_skip
      simp [cutStep, unquoted, unescaped, show ¬c.toNat < 32 by omega]
  | @letter name _ listed =>
      have known : ∀ escape ∈ letterEscapes,
          escape.1 ≠ 'u' ∧ escaped? escape.1 = some escape.2 := by decide
      obtain ⟨uncoded, stands⟩ := known _ listed
      have closed : cutStep (.escape taken none) name = some ([], .text (c :: taken) none) := by
        simp only at uncoded stands
        simp [cutStep, uncoded, stands]
      exact (cutFrom_skip (escape none) _).trans (cutFrom_skip closed _)
  | @unit digits _ unit =>
      have single : cutUnit taken none c.toNat = some (.text (c :: taken) none) := by
        have valid : c.toNat < 0xD800 ∨ 0xDFFF < c.toNat := c.valid.imp_right And.left
        have alone : ¬(0xD800 ≤ c.toNat ∧ c.toNat ≤ 0xDBFF) := by omega
        have paired : ¬(0xDC00 ≤ c.toNat ∧ c.toNat ≤ 0xDFFF) := by omega
        simp [cutUnit, alone, paired]
      rw [List.cons_append, List.cons_append, cutFrom_skip (escape none), cutFrom_skip (coded none),
        cutFrom_unit unit single]
  | @pair lead trail high low _ first second leads trails whole =>
      have leading : cutUnit taken none high = some (.text taken (some high)) := by
        simp [cutUnit, leads]
      have trailing : cutUnit taken (some high) low = some (.text (c :: taken) none) := by
        simp [cutUnit, trails, ← whole]
      rw [List.cons_append, List.cons_append, List.append_assoc, List.cons_append, List.cons_append,
        cutFrom_skip (escape none), cutFrom_skip (coded none), cutFrom_unit first leading,
        cutFrom_skip (escape _), cutFrom_skip (coded _), cutFrom_unit second trailing]

private theorem cutFrom_chars {text chars : List Char} (spelled : SpellsChars text chars) :
    cutFrom (.text taken none) (text ++ '"' :: rest) =
      (cutFrom .between rest).map ([.text (String.ofList (taken.reverse ++ chars))] ++ ·) := by
  induction spelled generalizing taken with
  | nil => exact cutFrom_cons (by simp [cutStep]) rest
  | cons first others ih =>
      rw [List.append_assoc, cutFrom_char first, ih, List.reverse_cons, List.append_assoc,
        List.singleton_append]

private theorem cuts_string {text : List Char} {s : String} (spelled : SpellsString text s) :
    Cuts text [.text s] := by
  obtain ⟨inner, chars, rfl⟩ := spelled
  intro rest _
  have opened : cutStep .between '"' = some ([], .text [] none) := rfl
  rw [List.cons_append, cutFrom_skip opened, List.append_assoc, List.singleton_append,
    cutFrom_chars chars, List.reverse_nil, List.nil_append, String.ofList_toList]

end Strings

section Values

private theorem cuts_itemTokens {items : List (List Char × Json)}
    (each : ∀ item ∈ items, Cuts item.1 item.2.tokens) :
    Cuts ((items.map Prod.fst).flatMap (',' :: ·)) (itemTokens (items.map Prod.snd)) ∧
      Ends ((items.map Prod.fst).flatMap (',' :: ·)) := by
  induction items with
  | nil =>
      rw [List.map_nil, List.map_nil, List.flatMap_nil, itemTokens]
      exact ⟨cuts_nil, ends_nil⟩
  | cons item items ih =>
      obtain ⟨first, others⟩ := List.forall_mem_cons.mp each
      obtain ⟨later, ends⟩ := ih others
      rw [List.map_cons, List.map_cons, List.flatMap_cons, itemTokens, List.cons_append]
      exact ⟨(first.append later ends).mark rfl, ends_cons rfl _⟩

private theorem cuts_name {text : List Char} {name : String} (spelled : SpellsName text name) :
    Cuts text [.text name] := by
  obtain ⟨before, inner, after, blankBefore, quoted, blankAfter, rfl⟩ := spelled
  have behind := (cuts_string quoted).append (cuts_nil.blank_append blankAfter)
  rw [List.append_nil] at behind
  exact (behind (ends_of_isBlank blankAfter)).blank_append blankBefore

private theorem cuts_field {field : Member} (name : SpellsName field.nameText field.name)
    (value : Cuts field.valueText field.value.tokens) :
    Cuts field.text (.text field.name :: .colon :: field.value.tokens) :=
  (cuts_name name).append (value.mark rfl) (ends_cons rfl _)

private theorem cuts_fieldTokens {fields : List Member}
    (names : ∀ field ∈ fields, SpellsName field.nameText field.name)
    (values : ∀ field ∈ fields, Cuts field.valueText field.value.tokens) :
    Cuts ((fields.map Member.text).flatMap (',' :: ·)) (fieldTokens (fields.map Member.meaning)) ∧
      Ends ((fields.map Member.text).flatMap (',' :: ·)) := by
  induction fields with
  | nil =>
      rw [List.map_nil, List.map_nil, List.flatMap_nil, fieldTokens]
      exact ⟨cuts_nil, ends_nil⟩
  | cons field fields ih =>
      obtain ⟨firstName, otherNames⟩ := List.forall_mem_cons.mp names
      obtain ⟨first, others⟩ := List.forall_mem_cons.mp values
      obtain ⟨later, ends⟩ := ih otherNames others
      rw [List.map_cons, List.map_cons, List.flatMap_cons, Member.meaning, fieldTokens,
        List.cons_append]
      exact ⟨((cuts_field firstName first).append later ends).mark rfl, ends_cons rfl _⟩

/-- The bracket that closes a list or an object, with white space in front of it. -/
theorem cuts_closing {gap : List Char} {c : Char} {token : Token} (blank : IsBlank gap)
    (stepped : cutStep .between c = some ([token], .between)) (ends : isBare c = false) :
    Cuts (gap ++ [c]) [token] ∧ Ends (gap ++ [c]) :=
  ⟨(cuts_nil.mark stepped).blank_append blank, (ends_of_isBlank blank).append (ends_cons ends [])⟩

/-- A text that spells a value is cut into the tokens of the value. -/
theorem cuts_of_spells {text : List Char} {value : Json} (spelled : Spells text value) :
    Cuts text value.tokens := by
  induction spelled with
  | @padded before text after value blankBefore inner blankAfter ih =>
      have behind := ih.append (cuts_nil.blank_append blankAfter)
      rw [List.append_nil, List.append_nil] at behind
      exact (behind (ends_of_isBlank blankAfter)).blank_append blankBefore
  | null =>
      rw [tokens]
      exact cuts_scalar (List.cons_ne_nil _ _) (List.all_eq_true.mp rfl) rfl
  | true =>
      rw [tokens]
      exact cuts_scalar (List.cons_ne_nil _ _) (List.all_eq_true.mp rfl) rfl
  | false =>
      rw [tokens]
      exact cuts_scalar (List.cons_ne_nil _ _) (List.all_eq_true.mp rfl) rfl
  | number number =>
      obtain ⟨nonempty, bare⟩ := isBare_of_spellsNumber number
      have scalar := cuts_scalar nonempty bare (bare?_of_spellsNumber number)
      cases number <;> rwa [tokens]
  | str string =>
      rw [tokens]
      exact cuts_string string
  | @arr items gap each blank ih =>
      have closing : Cuts (gap ++ [']']) [.closeList] ∧ Ends (gap ++ [']']) :=
        cuts_closing blank rfl rfl
      cases items with
      | nil =>
          rw [List.map_nil, List.map_nil, tokens]
          exact closing.1.mark rfl
      | cons item items =>
          obtain ⟨first, others⟩ := List.forall_mem_cons.mp ih
          obtain ⟨later, ends⟩ := cuts_itemTokens others
          rw [List.map_cons, List.map_cons, tokens, commaSeparated, List.append_assoc]
          exact (first.append (later.append closing.1 closing.2) (ends.append closing.2)).mark rfl
  | @obj fields gap names values blank ih =>
      have closing : Cuts (gap ++ ['\x7d']) [.closeObject] ∧ Ends (gap ++ ['\x7d']) :=
        cuts_closing blank rfl rfl
      cases fields with
      | nil =>
          rw [List.map_nil, List.map_nil, tokens]
          exact closing.1.mark rfl
      | cons field fields =>
          obtain ⟨firstName, otherNames⟩ := List.forall_mem_cons.mp names
          obtain ⟨first, others⟩ := List.forall_mem_cons.mp ih
          obtain ⟨later, ends⟩ := cuts_fieldTokens otherNames others
          have inner := (cuts_field firstName first).append (later.append closing.1 closing.2)
            (ends.append closing.2)
          rw [List.map_cons, List.map_cons, Member.meaning, tokens, commaSeparated,
            List.append_assoc]
          exact inner.mark rfl

end Values

end ModuleAtlas.Json
