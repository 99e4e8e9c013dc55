import ModuleAtlas.Text.Blank
import ModuleAtlas.Text.Word

/-! # Import forms

A form is a shape of source text that names a module: it reads the start of a
text and answers the module reference it found and the text behind it. Forms
know nothing of comments or strings.

Every piece of a form takes as many characters as it can. No piece can end
earlier and let the next one succeed, because the character behind a shorter
piece would always be one that the next piece refuses.
-/

namespace ModuleAtlas.Reference

open Text

/-- The text behind a fixed word. -/
def literal : List Char → List Char → Option (List Char)
  | [], s => some s
  | c :: word, d :: s => if c = d then literal word s else none
  | _ :: _, [] => none

/-- The text behind a non-empty run of characters of a class. -/
def run (inside : Char → Bool) : List Char → Option (List Char)
  | [] => none
  | c :: s => if inside c then some (s.dropWhile inside) else none

/-- The text behind a braced list. -/
def braced (s : List Char) : Option (List Char) := do
  let inner ← literal ['\x7b'] s
  literal ['\x7d'] (inner.dropWhile (· ≠ '\x7d'))

/-- The text behind a braced list that holds something. -/
def bracedSome (s : List Char) : Option (List Char) := do
  let inner ← literal ['\x7b'] s
  let behind ← run (· ≠ '\x7d') inner
  literal ['\x7d'] behind

/-- Whether a character opens or closes a reference. -/
def isQuote (c : Char) : Bool := c = '\'' || c = '"'

/-- A reference between quotes of either kind, and the text behind it. -/
def quotedReference : List Char → Option (List Char × List Char)
  | [] => none
  | c :: s =>
      if isQuote c && !(s.takeWhile (!isQuote ·)).isEmpty then
        match s.dropWhile (!isQuote ·) with
        | [] => none
        | _ :: rest => some (s.takeWhile (!isQuote ·), rest)
      else none

/-- A call of `name` on one reference, and the text behind it. -/
def call (name : List Char) (s : List Char) : Option (List Char × List Char) := do
  let opened ← literal (name ++ ['(']) s
  let (ref, behind) ← quotedReference opened
  let rest ← literal [')'] behind
  some (ref, rest)

/-- The names that an import statement binds: a braced list, a namespace, or one
name. -/
def importedNames (s : List Char) : Option (List Char) :=
  match s with
  | '\x7b' :: _ => braced s
  | '*' :: star => do
      let word ← literal ['a', 's'] (← run isBlank star)
      run isWordChar (← run isBlank word)
  | _ => run isWordChar s

/-- The names that an import statement binds, up to its reference. -/
def importClause (s : List Char) : Option (List Char) := do
  let word ← literal ['f', 'r', 'o', 'm'] (← run isBlank (← importedNames s))
  run isBlank word

/-- An import statement, with or without names. -/
def importStatement (s : List Char) : Option (List Char × List Char) := do
  let behind ← run isBlank (← literal ['i', 'm', 'p', 'o', 'r', 't'] s)
  match importClause behind with
  | some ref => quotedReference ref
  | none => quotedReference behind

/-- The text behind a word that declares a variable. -/
def declarator (s : List Char) : Option (List Char) :=
  match s with
  | 'c' :: _ => literal ['c', 'o', 'n', 's', 't'] s
  | 'l' :: _ => literal ['l', 'e', 't'] s
  | 'v' :: _ => literal ['v', 'a', 'r'] s
  | _ => none

/-- The name of the call that loads a module. -/
def requireWord : List Char := ['r', 'e', 'q', 'u', 'i', 'r', 'e']

/-- An assignment of a loaded module, from the blanks before its sign. -/
def assignedRequire (s : List Char) : Option (List Char × List Char) := do
  let behind ← literal ['='] (s.dropWhile isBlank)
  call requireWord (behind.dropWhile isBlank)

/-- A declaration that binds a loaded module to a name or to a braced list. -/
def requireDeclaration (s : List Char) : Option (List Char × List Char) := do
  let names ← run isBlank (← declarator s)
  match names with
  | '\x7b' :: _ => assignedRequire (← braced names)
  | _ => assignedRequire (← run isWordChar names)

/-- A constant that takes apart a loaded module. -/
def requireParts (s : List Char) : Option (List Char × List Char) := do
  let names ← literal ['c', 'o', 'n', 's', 't'] s
  assignedRequire (← bracedSome (names.dropWhile isBlank))

/-- A constant bound to a loaded module, whatever stands before the next equals
sign: a blank and at least one more character. -/
def requireConstant (s : List Char) : Option (List Char × List Char) := do
  match ← literal ['c', 'o', 'n', 's', 't'] s with
  | [] => none
  | c :: names => if isBlank c then assignedRequire (← run (· ≠ '=') names) else none

/-! ### Every form takes something away -/

private theorem length_literal {word s rest : List Char} (found : literal word s = some rest) :
    rest.length + word.length = s.length := by
  induction word generalizing s with
  | nil => simp only [literal, Option.some.injEq] at found; simp [found]
  | cons c word ih =>
      cases s with
      | nil => simp [literal] at found
      | cons d s =>
          simp only [literal] at found
          split at found
          · have := ih found
            simp only [List.length_cons]
            omega
          · simp at found

private theorem length_dropWhile_le (inside : Char → Bool) (s : List Char) :
    (s.dropWhile inside).length ≤ s.length :=
  (List.dropWhile_suffix inside).length_le

private theorem length_run {inside : Char → Bool} {s rest : List Char}
    (found : run inside s = some rest) :
    rest.length < s.length := by
  cases s with
  | nil => simp [run] at found
  | cons c s =>
      simp only [run] at found
      split at found
      · cases found
        exact Nat.lt_succ_of_le (length_dropWhile_le inside s)
      · simp at found

private theorem length_quotedReference {s ref rest : List Char}
    (found : quotedReference s = some (ref, rest)) : rest.length < s.length := by
  cases s with
  | nil => simp [quotedReference] at found
  | cons c s =>
      simp only [quotedReference] at found
      split at found
      · split at found
        · simp at found
        · next behind =>
            cases found
            have := length_dropWhile_le (!isQuote ·) s
            rw [behind] at this
            simp only [List.length_cons] at this ⊢
            omega
      · simp at found

/-- A call takes at least one character. -/
theorem length_call {name s ref rest : List Char} (found : call name s = some (ref, rest)) :
    rest.length < s.length := by
  simp only [call, Option.bind_eq_bind, Option.bind_eq_some_iff, Prod.exists] at found
  obtain ⟨opened, open_, ref', behind, quote, rest', close, same⟩ := found
  cases same
  have := length_literal open_
  have := length_quotedReference quote
  have := length_literal close
  omega

private theorem length_braced {s rest : List Char} (found : braced s = some rest) :
    rest.length < s.length := by
  simp only [braced, Option.bind_eq_bind, Option.bind_eq_some_iff] at found
  obtain ⟨inner, open_, close⟩ := found
  have := length_literal open_
  have := length_literal close
  have := length_dropWhile_le (· ≠ '\x7d') inner
  simp only [List.length_singleton] at *
  omega

private theorem length_bracedSome {s rest : List Char} (found : bracedSome s = some rest) :
    rest.length < s.length := by
  simp only [bracedSome, Option.bind_eq_bind, Option.bind_eq_some_iff] at found
  obtain ⟨inner, open_, behind, some_, close⟩ := found
  have := length_literal open_
  have := length_run some_
  have := length_literal close
  omega

private theorem length_importedNames {s rest : List Char} (found : importedNames s = some rest) :
    rest.length < s.length := by
  simp only [importedNames] at found
  split at found
  · exact length_braced found
  · simp only [Option.bind_eq_bind, Option.bind_eq_some_iff] at found
    obtain ⟨behind, blank, word, as_, name, blank', last⟩ := found
    have := length_run blank
    have := length_literal as_
    have := length_run blank'
    have := length_run last
    simp only [List.length_cons]
    omega
  · exact length_run found

private theorem length_importClause {s rest : List Char} (found : importClause s = some rest) :
    rest.length < s.length := by
  simp only [importClause, Option.bind_eq_bind, Option.bind_eq_some_iff] at found
  obtain ⟨names, named, blank, gap, word, from_, last⟩ := found
  have := length_importedNames named
  have := length_run gap
  have := length_literal from_
  have := length_run last
  omega

/-- An import statement takes at least one character. -/
theorem length_importStatement {s ref rest : List Char}
    (found : importStatement s = some (ref, rest)) : rest.length < s.length := by
  simp only [importStatement, Option.bind_eq_bind, Option.bind_eq_some_iff] at found
  obtain ⟨behind, word, gap, blank, found⟩ := found
  have := length_literal word
  have := length_run blank
  split at found
  · next clause =>
      have := length_importClause clause
      have := length_quotedReference found
      omega
  · have := length_quotedReference found
    omega

private theorem length_declarator {s rest : List Char} (found : declarator s = some rest) :
    rest.length < s.length := by
  simp only [declarator] at found
  split at found
  case h_4 => simp at found
  all_goals
    have := length_literal found
    simp only [List.length_cons, List.length_nil] at this ⊢
    omega

private theorem length_assignedRequire {s ref rest : List Char}
    (found : assignedRequire s = some (ref, rest)) : rest.length < s.length := by
  simp only [assignedRequire, Option.bind_eq_bind, Option.bind_eq_some_iff] at found
  obtain ⟨behind, sign, found⟩ := found
  have := length_dropWhile_le isBlank s
  have := length_literal sign
  have := length_dropWhile_le isBlank behind
  have := length_call found
  omega

/-- A declaration that requires a module takes at least one character. -/
theorem length_requireDeclaration {s ref rest : List Char}
    (found : requireDeclaration s = some (ref, rest)) : rest.length < s.length := by
  simp only [requireDeclaration, Option.bind_eq_bind, Option.bind_eq_some_iff] at found
  obtain ⟨behind, word, names, blank, found⟩ := found
  have := length_declarator word
  have := length_run blank
  split at found
  · simp only [Option.bind_eq_some_iff] at found
    obtain ⟨inner, list, found⟩ := found
    have := length_braced list
    have := length_assignedRequire found
    omega
  · simp only [Option.bind_eq_some_iff] at found
    obtain ⟨inner, name, found⟩ := found
    have := length_run name
    have := length_assignedRequire found
    omega

/-- A declaration of the parts of a module takes at least one character. -/
theorem length_requireParts {s ref rest : List Char}
    (found : requireParts s = some (ref, rest)) : rest.length < s.length := by
  simp only [requireParts, Option.bind_eq_bind, Option.bind_eq_some_iff] at found
  obtain ⟨names, word, inner, list, found⟩ := found
  have := length_literal word
  have := length_dropWhile_le isBlank names
  have := length_bracedSome list
  have := length_assignedRequire found
  omega

/-- A constant that requires a module takes at least one character. -/
theorem length_requireConstant {s ref rest : List Char}
    (found : requireConstant s = some (ref, rest)) : rest.length < s.length := by
  simp only [requireConstant, Option.bind_eq_bind, Option.bind_eq_some_iff] at found
  obtain ⟨behind, word, found⟩ := found
  have := length_literal word
  split at found
  · simp at found
  · split at found
    · simp only [Option.bind_eq_some_iff] at found
      obtain ⟨inner, gap, found⟩ := found
      have := length_run gap
      have := length_assignedRequire found
      simp only [List.length_cons] at *
      omega
    · simp at found

/-- A shape of source text that names a module. It always takes at least one
character, so a text holds finitely many. -/
structure Form where
  /-- The reference at the start of a text, and the text behind the form. -/
  read : List Char → Option (List Char × List Char)
  shorter : ∀ {s ref rest}, read s = some (ref, rest) → rest.length < s.length

/-- The forms in the order in which their references are listed. -/
def forms : List Form :=
  [ ⟨importStatement, length_importStatement⟩,
    ⟨requireDeclaration, length_requireDeclaration⟩,
    ⟨call requireWord, length_call⟩,
    ⟨call ['i', 'm', 'p', 'o', 'r', 't'], length_call⟩,
    ⟨requireParts, length_requireParts⟩,
    ⟨requireConstant, length_requireConstant⟩ ]

end ModuleAtlas.Reference
