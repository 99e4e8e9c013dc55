import ModuleAtlas.Proofs.Path.Parts
import ModuleAtlas.Proofs.Reference.Calls
import ModuleAtlas.Proofs.Text.Listing

/-! # References of plain programs

A plain program is a list of statements, one to a line, each of which names one module. The
search for import statements finds the references of just these, in their order: it reads
each of them whole (`ModuleAtlas.Reference.Lead.importStatement_text`) and finds nothing in
the others (`ModuleAtlas.Reference.Lead.scan_text`), since a name or a reference that ends in
the word `import` is followed by what no import statement goes on with
(`ModuleAtlas.Reference.scan_word`). The other searches may reach over several lines, but
each ends with a call, and a parenthesis opens only before the reference of a statement.
-/

namespace ModuleAtlas.Reference

open Text

/-- Whether a character may stand in a name. -/
def isNameChar (c : Char) : Bool := c.isAlphanum || c == '_'

/-- Whether a character may stand in the reference of a statement. -/
def isReferenceChar (c : Char) : Bool :=
  c.isAlphanum || c == '@' || c == '.' || c == '/' || c == '_' || c == '-'

/-- A name of a program. -/
structure Name where
  text : String
  nonempty : text ≠ ""
  valid : ∀ c ∈ text.toList, isNameChar c = true

/-- A reference as a statement writes it, between two quotes of one kind. -/
structure Specifier where
  text : String
  quote : Char
  nonempty : text ≠ ""
  valid : ∀ c ∈ text.toList, isReferenceChar c = true
  isQuote_quote : isQuote quote = true

/-- The text of a reference with its quotes. -/
def Specifier.quotation (target : Specifier) : String :=
  String.singleton target.quote ++ target.text ++ String.singleton target.quote

/-- What a statement binds: one name, or some names in braces. -/
inductive Names where
  | one (name : Name)
  | braced (first : Name) (others : List Name)

/-- The text of the names that a statement binds. -/
def Names.text : Names → String
  | .one name => name.text
  | .braced first others => "\x7b " ++ join ", " ((first :: others).map Name.text) ++ " \x7d"

/-- What a statement says before its reference: an import statement, a declaration that
binds a loaded module, or a mere call. -/
inductive Lead where
  | importNames (names : Names)
  | importAll (name : Name)
  | importOnly
  | declaration (word : String) (declares : word ∈ ["const", "let", "var"]) (names : Names)
  | requireCall
  | importCall

namespace Lead

/-- The text before the reference. -/
def text : Lead → String
  | .importNames names => "import " ++ names.text ++ " from "
  | .importAll name => "import * as " ++ name.text ++ " from "
  | .importOnly => "import "
  | .declaration word _ names => word ++ " " ++ names.text ++ " = require("
  | .requireCall => "require("
  | .importCall => "import("

/-- Whether a statement is an import statement; otherwise it is or ends with a call. -/
def isImport : Lead → Bool
  | .importNames _ | .importAll _ | .importOnly => true
  | .declaration _ _ _ | .requireCall | .importCall => false

/-- The text behind the reference. -/
def ending (lead : Lead) : String := if lead.isImport then ";" else ");"

end Lead

/-- A statement that names a module. -/
structure Statement where
  lead : Lead
  target : Specifier

/-- The text of a statement. -/
def Statement.text (statement : Statement) : String :=
  statement.lead.text ++ statement.target.quotation ++ statement.lead.ending

/-- The text of a program, one statement to a line. -/
def sourceOf (program : List Statement) : String := join "\n" (program.map Statement.text)

/-- The references of the import statements of a program, in their order. -/
def importReferences (program : List Statement) : List String :=
  (program.filter (·.lead.isImport)).map (·.target.text)

section Characters

variable {c : Char}

private theorem bounds_of_isAlphanum (letter : c.isAlphanum = true) :
    48 ≤ c.toNat ∧ c.toNat ≤ 122 := by
  change ((decide (65 ≤ c.val ∧ c.val ≤ 90) || (decide (97 ≤ c.val) && decide (c.val ≤ 122))) ||
    (decide (48 ≤ c.val) && decide (c.val ≤ 57))) = true at letter
  simp only [Bool.or_eq_true, Bool.and_eq_true, decide_eq_true_eq, UInt32.le_iff_toNat_le] at letter
  have bounds : (65 ≤ c.toNat ∧ c.toNat ≤ 90 ∨ 97 ≤ c.toNat ∧ c.toNat ≤ 122) ∨
      48 ≤ c.toNat ∧ c.toNat ≤ 57 := letter
  omega

private theorem isReferenceChar_of_isNameChar (valid : isNameChar c = true) :
    isReferenceChar c = true := by
  simp only [isNameChar, isReferenceChar, Bool.or_eq_true] at valid ⊢
  tauto

private theorem bounds_of_isReferenceChar (valid : isReferenceChar c = true) :
    45 ≤ c.toNat ∧ c.toNat ≤ 122 := by
  simp only [isReferenceChar, Bool.or_eq_true, beq_iff_eq] at valid
  rcases valid with ((((letter | rfl) | rfl) | rfl) | rfl) | rfl
  · exact ⟨by have := (bounds_of_isAlphanum letter).1; omega, (bounds_of_isAlphanum letter).2⟩
  all_goals decide

private theorem isBlank_of_isReferenceChar (valid : isReferenceChar c = true) :
    isBlank c = false := by
  have bounds := bounds_of_isReferenceChar valid
  simp only [isBlank, Bool.or_eq_false_iff, Bool.and_eq_false_iff, decide_eq_false_iff_not,
    beq_eq_false_iff_ne]
  omega

private theorem isMark_of_isReferenceChar (valid : isReferenceChar c = true) :
    isMark c = false := by
  have bounds := bounds_of_isReferenceChar valid
  rw [Bool.eq_false_iff]
  intro mark
  simp only [isMark, isQuote, Bool.or_eq_true, decide_eq_true_eq, beq_iff_eq] at mark
  rcases mark with ((rfl | rfl) | rfl) | rfl <;> exact absurd bounds.1 (by decide)

private theorem isWordChar_of_isNameChar (valid : isNameChar c = true) : isWordChar c = true := by
  have bounds := bounds_of_isReferenceChar (isReferenceChar_of_isNameChar valid)
  rw [isWordChar, if_pos (by omega)]
  exact valid

end Characters

section Skipping

/-- What is left of an import statement behind its first word. -/
def importRest (s : List Char) : Option (List Char × List Char) :=
  (run isBlank s).bind fun behind =>
    match importClause behind with
    | some ref => quotedReference ref
    | none => quotedReference behind

private theorem importStatement_eq (s : List Char) :
    importStatement s = (literal importWord s).bind importRest := rfl

variable {c : Char} {s word rest : List Char}

private theorem importRest_of_not_blank (dense : isBlank c = false) (s : List Char) :
    importRest (c :: s) = none := by
  rw [importRest, run, dense]
  rfl

private theorem scan_of_importStatement {ref : List Char}
    (found : importStatement s = some (ref, rest)) :
    importForm.scan s = ref :: importForm.scan rest := by
  cases s with
  | nil => cases found
  | cons c s => exact Form.scan_of_read found

/-- No import statement starts with another letter. -/
theorem scan_cons_of_ne (other : c ≠ 'i') (s : List Char) :
    importForm.scan (c :: s) = importForm.scan s := by
  apply Form.scan_of_none
  change (literal importWord (c :: s)).bind importRest = none
  rw [importWord, literal, if_neg (Ne.symm other)]
  rfl

private theorem scan_append_of_notMem (front : List Char) (none : 'i' ∉ front) (rest : List Char) :
    importForm.scan (front ++ rest) = importForm.scan rest := by
  induction front with
  | nil => rfl
  | cons c front ih =>
      rw [List.mem_cons, not_or] at none
      rw [List.cons_append, scan_cons_of_ne (Ne.symm none.1), ih none.2]

/-- A rest that no import statement goes on with, behind a word that ends like its first
one. -/
structure Stops (rest : List Char) : Prop where
  first : ∃ c s, rest = c :: s ∧ c ∉ importWord
  nothing : importRest rest = none

private theorem stops_cons (outside : c ∉ importWord) (dense : isBlank c = false) (s : List Char) :
    Stops (c :: s) :=
  ⟨⟨c, s, rfl, outside⟩, importRest_of_not_blank dense s⟩

private theorem importStatement_of_stops (dense : ∀ c ∈ word, isBlank c = false)
    (stops : Stops rest) :
    importStatement (word ++ rest) = none := by
  rw [importStatement_eq, Option.bind_eq_none_iff]
  intro behind spelled
  rw [literal_eq_some_iff] at spelled
  -- The first word of an import statement can end with this word only: it neither reaches into
  -- the rest, whose first letter it does not have, nor leaves a letter where a blank must follow.
  rcases List.append_eq_append_iff.mp spelled with ⟨tail, early, same⟩ | ⟨tail, rfl, rfl⟩
  · cases tail with
    | nil => rw [← List.nil_append behind, ← same]; exact stops.nothing
    | cons d tail =>
        obtain ⟨c, s, rfl, outside⟩ := stops.first
        obtain ⟨rfl, -⟩ := List.cons.inj same
        exact absurd (early ▸ List.mem_append_right word List.mem_cons_self) outside
  · cases tail with
    | nil => exact stops.nothing
    | cons d tail =>
        exact importRest_of_not_blank (dense d (List.mem_append_right _ List.mem_cons_self)) _

/-- Nothing is found in a word that is followed by what no import statement goes on with. -/
theorem scan_word (dense : ∀ c ∈ word, isBlank c = false) (stops : Stops rest) :
    importForm.scan (word ++ rest) = importForm.scan rest := by
  induction word with
  | nil => rfl
  | cons c word ih =>
      have none := importStatement_of_stops dense stops
      exact (Form.scan_of_none none).trans (ih (List.forall_mem_cons.mp dense).2)

end Skipping

section Words

variable {rest : List Char}

private theorem Name.dense (name : Name) :
    ∀ c ∈ name.text.toList, isBlank c = false := fun c member =>
  isBlank_of_isReferenceChar (isReferenceChar_of_isNameChar (name.valid c member))

private theorem Specifier.dense (target : Specifier) :
    ∀ c ∈ target.text.toList, isBlank c = false :=
  fun c member => isBlank_of_isReferenceChar (target.valid c member)

private theorem Specifier.isQuotable (target : Specifier) : IsQuotable target.text.toList :=
  ⟨fun empty => target.nonempty (String.toList_injective empty), fun c member =>
    isQuote_of_not_isMark (isMark_of_isReferenceChar (target.valid c member))⟩

private theorem isBlank_of_isQuote {c : Char} (quote : isQuote c = true) : isBlank c = false := by
  simp only [isQuote, Bool.or_eq_true, decide_eq_true_eq] at quote
  rcases quote with rfl | rfl <;> rfl

private theorem stops_of_isQuote {c : Char} (quote : isQuote c = true) (s : List Char) :
    Stops (c :: s) := by
  apply stops_cons _ (isBlank_of_isQuote quote)
  simp only [isQuote, Bool.or_eq_true, decide_eq_true_eq] at quote
  rcases quote with rfl | rfl <;> decide

private theorem Specifier.quote_ne {c : Char} (target : Specifier) (plain : isQuote c = false) :
    target.quote ≠ c := by
  intro same
  exact Bool.false_ne_true (plain.symm.trans (same ▸ target.isQuote_quote))

private theorem Name.unopened (name : Name) : '(' ∉ name.text.toList := fun member =>
  Bool.false_ne_true (name.valid '(' member)

private theorem Specifier.unopened (target : Specifier) : '(' ∉ target.quotation.toList := by
  have inside : '(' ∉ target.text.toList := fun member =>
    Bool.false_ne_true (target.valid '(' member)
  simp [quotation, inside, (target.quote_ne (rfl : isQuote '(' = false)).symm]

/-- Nothing is found in the names of a list. -/
theorem scan_join (names : List Name) (stops : Stops rest) :
    importForm.scan ((join ", " (names.map Name.text)).toList ++ rest) = importForm.scan rest := by
  induction names with
  | nil => rfl
  | cons first names ih =>
      cases names with
      | nil => exact scan_word first.dense stops
      | cons second names =>
          have comma (s : List Char) : Stops (", ".toList ++ s) :=
            stops_cons (by decide : ',' ∉ importWord) rfl (' ' :: s)
          rw [List.map_cons, List.map_cons, join, String.toList_append, String.toList_append,
            List.append_assoc, List.append_assoc, scan_word first.dense (comma _),
            scan_append_of_notMem ", ".toList (by decide)]
          exact ih

private theorem Names.scan_text (names : Names) (rest : List Char) :
    importForm.scan (names.text.toList ++ ' ' :: '=' :: rest) = importForm.scan rest := by
  have sign : Stops (' ' :: '=' :: rest) := ⟨⟨' ', _, rfl, by decide⟩, rfl⟩
  cases names with
  | one name =>
      rw [text, scan_word name.dense sign]
      exact scan_append_of_notMem [' ', '='] (by decide) rest
  | braced first others =>
      have brace : Stops (' ' :: '\x7d' :: ' ' :: '=' :: rest) := ⟨⟨' ', _, rfl, by decide⟩, rfl⟩
      rw [text, String.toList_append, String.toList_append, List.append_assoc, List.append_assoc]
      rw [scan_append_of_notMem "\x7b ".toList (by decide)]
      exact (scan_join _ brace).trans
        (scan_append_of_notMem [' ', '\x7d', ' ', '='] (by decide) rest)

private theorem Specifier.toList_quotation (target : Specifier) (rest : List Char) :
    target.quotation.toList ++ rest =
      target.quote :: (target.text.toList ++ target.quote :: rest) := by
  simp only [quotation, String.append_singleton, String.toList_push, String.toList_append,
    String.toList_singleton, List.cons_append, List.nil_append, List.append_assoc]

private theorem Specifier.scan_quotation (target : Specifier) (rest : List Char) :
    importForm.scan (target.quotation.toList ++ rest) = importForm.scan rest := by
  have quote : target.quote ≠ 'i' := target.quote_ne rfl
  rw [toList_quotation, scan_cons_of_ne quote,
    scan_word target.dense (stops_of_isQuote target.isQuote_quote rest), scan_cons_of_ne quote]

private theorem scan_callName {name : List Char} (named : name ∈ callNames) (rest : List Char) :
    importForm.scan (name ++ '(' :: rest) = importForm.scan rest := by
  have dense : ∀ word ∈ callNames, word.all (!isBlank ·) = true := List.all_eq_true.mp rfl
  rw [scan_word, scan_cons_of_ne (by decide)]
  · simpa only [List.all_eq_true, Bool.not_eq_eq_eq_not, Bool.not_true] using dense name named
  · exact stops_cons (by decide) rfl rest

end Words

section Reading

variable {c : Char} {s inner rest : List Char}

private theorem run_append {inside : Char → Bool} {word : List Char} (nonempty : word ≠ [])
    (pass : ∀ c ∈ word, inside c = true) (stop : inside c = false) (rest : List Char) :
    run inside (word ++ c :: rest) = some (c :: rest) := by
  obtain ⟨first, others, rfl⟩ := List.exists_cons_of_ne_nil nonempty
  obtain ⟨here, later⟩ := List.forall_mem_cons.mp pass
  rw [List.cons_append, run, if_pos here, List.dropWhile_append_of_pos later]
  simp only [stop, Bool.false_eq_true, not_false_eq_true, List.dropWhile_cons_of_neg]

private theorem run_blank (dense : isBlank c = false) (s : List Char) :
    run isBlank (' ' :: c :: s) = some (c :: s) :=
  run_append (List.cons_ne_nil _ _) (List.forall_mem_singleton.mpr rfl) dense s

private theorem braced_append (unclosed : '\x7d' ∉ inner) (rest : List Char) :
    braced ('\x7b' :: (inner ++ '\x7d' :: rest)) = some rest := by
  have pass : ∀ c ∈ inner, decide (c ≠ '\x7d') = true := by
    intro c member
    exact decide_eq_true fun same => unclosed (same ▸ member)
  change literal ['\x7d'] ((inner ++ '\x7d' :: rest).dropWhile fun c => decide (c ≠ '\x7d')) = _
  rw [List.dropWhile_append_of_pos pass]
  rfl

private theorem Name.run_text (name : Name) (rest : List Char) :
    run isWordChar (name.text.toList ++ ' ' :: rest) = some (' ' :: rest) :=
  run_append (fun empty => name.nonempty (String.toList_injective empty))
    (fun c member => isWordChar_of_isNameChar (name.valid c member)) rfl rest

private theorem Name.exists_text (name : Name) :
    ∃ c s, name.text.toList = c :: s ∧ isNameChar c = true ∧ isBlank c = false := by
  obtain ⟨c, s, whole⟩ := List.exists_cons_of_ne_nil fun empty : name.text.toList = [] =>
    name.nonempty (String.toList_injective empty)
  have first : c ∈ name.text.toList := whole ▸ List.mem_cons_self
  exact ⟨c, s, whole, name.valid c first, name.dense c first⟩

private theorem notMem_toList_names (names : List Name) (outside : isNameChar c = false)
    (between : c ∉ [',', ' ']) : c ∉ (join ", " (names.map Name.text)).toList := by
  intro member
  rcases mem_toList_join member with separates | ⟨text, listed, inside⟩
  · exact between separates
  · obtain ⟨name, -, rfl⟩ := List.mem_map.mp listed
    exact Bool.false_ne_true (outside.symm.trans (name.valid c inside))

private theorem Names.unopened (names : Names) : '(' ∉ names.text.toList := by
  cases names with
  | one name => exact name.unopened
  | braced first others =>
      have inside := notMem_toList_names (first :: others) (c := '(') rfl (by decide)
      simpa [text] using inside

private theorem importedNames_of_isNameChar (valid : isNameChar c = true) (s : List Char) :
    importedNames (c :: s) = run isWordChar (c :: s) := by
  unfold importedNames
  split
  · next same => cases same; cases valid
  · next same => cases same; cases valid
  · rfl

/-- The names before the word `from` are read whole. -/
theorem Names.importedNames_text (names : Names) (rest : List Char) :
    ∃ c s, names.text.toList = c :: s ∧ isBlank c = false ∧
      importedNames (c :: (s ++ ' ' :: rest)) = some (' ' :: rest) := by
  cases names with
  | one name =>
      obtain ⟨c, s, whole, valid, dense⟩ := name.exists_text
      refine ⟨c, s, whole, dense, ?_⟩
      rw [importedNames_of_isNameChar valid, ← List.cons_append, ← whole]
      exact name.run_text rest
  | braced first others =>
      have unclosed :
          '\x7d' ∉ ' ' :: ((join ", " ((first :: others).map Name.text)).toList ++ [' ']) := by
        have inside := notMem_toList_names (first :: others) (c := '\x7d') rfl (by decide)
        simpa using inside
      refine ⟨'\x7b',
        ' ' :: ((join ", " ((first :: others).map Name.text)).toList ++ [' ', '\x7d']), ?_, rfl, ?_⟩
      · simp [text]
      · change Reference.braced _ = _
        have read := braced_append unclosed (' ' :: rest)
        simpa using read

/-- The star and the name behind it are read whole. -/
theorem Name.importedNames_star (name : Name) (rest : List Char) :
    importedNames ('*' :: (" as ".toList ++ (name.text.toList ++ ' ' :: rest))) =
      some (' ' :: rest) := by
  obtain ⟨c, s, whole, -, dense⟩ := name.exists_text
  have read := name.run_text rest
  rw [whole, List.cons_append] at read ⊢
  exact (congrArg (Option.bind · (run isWordChar)) (run_blank dense (s ++ ' ' :: rest))).trans read

private theorem importStatement_of_importedNames {d : Char} (first : isBlank c = false)
    (named : importedNames (c :: s) = some (" from ".toList ++ d :: rest))
    (dense : isBlank d = false) :
    importStatement (importWord ++ ' ' :: c :: s) = quotedReference (d :: rest) := by
  have clause : importClause (c :: s) = some (d :: rest) := by
    rw [importClause, named]
    exact run_blank dense rest
  rw [importStatement_eq, literal_eq_some_iff.mpr rfl, Option.bind_some, importRest,
    run_blank first, Option.bind_some, clause]

/-- A quote begins no names, so that the reference follows the first word. -/
theorem importStatement_of_isQuote (quote : isQuote c = true) (s : List Char) :
    importStatement (importWord ++ ' ' :: c :: s) = quotedReference (c :: s) := by
  have clause : importClause (c :: s) = none := by
    simp only [isQuote, Bool.or_eq_true, decide_eq_true_eq] at quote
    rcases quote with rfl | rfl <;> rfl
  rw [importStatement_eq, literal_eq_some_iff.mpr rfl, Option.bind_some, importRest,
    run_blank (isBlank_of_isQuote quote), Option.bind_some, clause]

end Reading

namespace Lead

/-- Nothing is found in what stands before the reference of a call. -/
theorem scan_text {lead : Lead} (call : lead.isImport = false) (rest : List Char) :
    importForm.scan (lead.text.toList ++ rest) = importForm.scan rest := by
  have require : requireWord ∈ callNames := List.mem_cons_self
  cases lead with
  | importNames | importAll | importOnly => cases call
  | declaration word declares names =>
      have plain : ∀ word ∈ ["const", "let", "var"], 'i' ∉ word.toList := by decide
      simp only [text, String.toList_append, List.append_assoc]
      rw [scan_append_of_notMem _ (plain word declares), scan_append_of_notMem _ (by decide)]
      exact (names.scan_text _).trans
        ((scan_append_of_notMem [' '] (by decide) _).trans (scan_callName require rest))
  | requireCall => exact scan_callName require rest
  | importCall => exact scan_callName (List.mem_cons_of_mem _ List.mem_cons_self) rest

/-- An import statement is read whole. -/
theorem importStatement_text {lead : Lead} (imports : lead.isImport = true) (target : Specifier)
    (rest : List Char) :
    importStatement (lead.text.toList ++ (target.quotation.toList ++ rest)) =
      some (target.text.toList, rest) := by
  have quote := target.isQuote_quote
  have quoted := quotedReference_of_isQuotable target.isQuotable quote quote rest
  have dense := isBlank_of_isQuote quote
  rw [target.toList_quotation]
  cases lead with
  | declaration | requireCall | importCall => cases imports
  | importNames names =>
      obtain ⟨c, s, whole, first, named⟩ := names.importedNames_text
        ("from ".toList ++ target.quote :: (target.text.toList ++ target.quote :: rest))
      rw [← quoted, ← importStatement_of_importedNames first named dense]
      simp [text, whole, importWord]
  | importAll name =>
      have named := name.importedNames_star
        ("from ".toList ++ target.quote :: (target.text.toList ++ target.quote :: rest))
      rw [← quoted, ← importStatement_of_importedNames rfl named dense]
      simp [text, importWord]
  | importOnly => exact (importStatement_of_isQuote quote _).trans quoted

/-- No parenthesis stands in an import statement. -/
theorem unopened_text {lead : Lead} (imports : lead.isImport = true) : '(' ∉ lead.text.toList := by
  cases lead with
  | declaration | requireCall | importCall => cases imports
  | importNames names => simp [text, names.unopened]
  | importAll name => simp [text, name.unopened]
  | importOnly => decide

/-- The name of a call and the only parenthesis stand right before the reference. -/
theorem exists_callName {lead : Lead} (call : lead.isImport = false) :
    ∃ front, ∃ name ∈ callNames, '(' ∉ front ++ name ∧
      lead.text.toList = front ++ name ++ ['('] := by
  have require : requireWord ∈ callNames := List.mem_cons_self
  cases lead with
  | importNames | importAll | importOnly => cases call
  | declaration word declares names =>
      have plain : ∀ word ∈ ["const", "let", "var"], '(' ∉ word.toList := by decide
      refine ⟨(word ++ " " ++ names.text ++ " = ").toList, requireWord, require, ?_, ?_⟩
      · simp [names.unopened, plain word declares, requireWord]
      · simp [text, requireWord]
  | requireCall => exact ⟨[], requireWord, require, by decide, rfl⟩
  | importCall =>
      exact ⟨[], importWord, List.mem_cons_of_mem _ List.mem_cons_self, by decide, rfl⟩

end Lead

section Programs

variable {program : List Statement} {statement : Statement} {inner rest : List Char}

private theorem Statement.toList_text (statement : Statement) (rest : List Char) :
    statement.text.toList ++ rest = statement.lead.text.toList ++
      (statement.target.quotation.toList ++ (statement.lead.ending.toList ++ rest)) := by
  simp only [text, String.toList_append, List.append_assoc]

/-- The search for import statements finds the reference of an import statement and passes
over any other one. -/
theorem Statement.scan_text (statement : Statement) (rest : List Char) :
    importForm.scan (statement.text.toList ++ rest) =
      (importReferences [statement]).map String.toList ++ importForm.scan rest := by
  obtain ⟨lead, target⟩ := statement
  rw [toList_text]
  cases kind : lead.isImport with
  | true =>
      rw [scan_of_importStatement (Lead.importStatement_text kind target _), Lead.ending, kind,
        if_pos rfl, scan_append_of_notMem _ (by decide)]
      simp only [importReferences, kind, List.filter_cons_of_pos, List.filter_nil, List.map_cons,
        List.map_nil, List.cons_append, List.nil_append]
  | false =>
      rw [Lead.scan_text kind, target.scan_quotation, Lead.ending, kind, if_neg Bool.false_ne_true,
        scan_append_of_notMem _ (by decide)]
      simp only [importReferences, kind, Bool.false_eq_true, not_false_eq_true,
        List.filter_cons_of_neg, List.filter_nil, List.map_nil, List.nil_append]

/-- The text of a program is that of its first statement, a line feed if there are more, and
that of the others. -/
theorem sourceOf_cons (statement : Statement) (program : List Statement) :
    ∃ gap, gap ⊆ ['\n'] ∧ (sourceOf (statement :: program)).toList =
      statement.text.toList ++ (gap ++ (sourceOf program).toList) := by
  cases program with
  | nil => exact ⟨[], List.nil_subset _, by simp [sourceOf, join]⟩
  | cons next program => exact ⟨['\n'], List.Subset.refl _, by simp [sourceOf, join]⟩

private theorem scan_sourceOf (program : List Statement) :
    importForm.scan (sourceOf program).toList = (importReferences program).map String.toList := by
  induction program with
  | nil => exact importForm.scan_nil
  | cons statement program ih =>
      obtain ⟨gap, feeds, whole⟩ := sourceOf_cons statement program
      have plain : 'i' ∉ gap := fun member => absurd (feeds member) (by decide)
      rw [whole, statement.scan_text, scan_append_of_notMem _ plain, ih, ← List.map_append,
        importReferences, importReferences, ← List.map_append, ← List.filter_append]
      rfl

/-- A statement stands in the text of its program. -/
theorem exists_suffix_of_mem (listed : statement ∈ program) :
    ∃ rest, statement.text.toList ++ rest <:+ (sourceOf program).toList := by
  induction program with
  | nil => cases listed
  | cons first program ih =>
      obtain ⟨gap, -, whole⟩ := sourceOf_cons first program
      rw [whole]
      rcases List.mem_cons.mp listed with rfl | later
      · exact ⟨_, List.suffix_refl _⟩
      · obtain ⟨rest, inside⟩ := ih later
        exact ⟨rest, inside.trans
          ((List.suffix_append gap _).trans (List.suffix_append first.text.toList _))⟩

/-- A parenthesis of a text is not in a part that has none. -/
theorem suffix_of_unopened {front : List Char} (none : '(' ∉ front)
    (inside : '(' :: inner <:+ front ++ rest) : '(' :: inner <:+ rest := by
  rcases suffix_append_cases inside with later | ⟨tail, early, same⟩
  · exact later
  · cases tail with
    | nil => exact same ▸ List.suffix_refl rest
    | cons c tail =>
        obtain ⟨rfl, -⟩ := List.cons.inj same
        exact absurd (early.mem List.mem_cons_self) none

/-- A parenthesis of a statement opens right before its reference. -/
theorem Statement.exists_quotation (inside : '(' :: inner <:+ statement.text.toList ++ rest) :
    (∃ behind, inner = statement.target.quotation.toList ++ behind) ∨ '(' :: inner <:+ rest := by
  obtain ⟨lead, target⟩ := statement
  have ends : '(' ∉ lead.ending.toList := by
    rw [Lead.ending]
    split <;> decide
  rw [toList_text] at inside
  cases kind : lead.isImport with
  | true =>
      exact Or.inr (suffix_of_unopened ends (suffix_of_unopened target.unopened
        (suffix_of_unopened (Lead.unopened_text kind) inside)))
  | false =>
      obtain ⟨front, name, -, none, whole⟩ := Lead.exists_callName kind
      rw [whole, List.append_assoc (front ++ name)] at inside
      rcases List.suffix_cons_iff.mp (suffix_of_unopened none inside) with here | later
      · exact Or.inl ⟨_, (List.cons.inj here).2⟩
      · exact Or.inr (suffix_of_unopened ends (suffix_of_unopened target.unopened later))

/-- A parenthesis of a program opens right before the reference of a statement. -/
theorem exists_quotation_of_suffix (inside : '(' :: inner <:+ (sourceOf program).toList) :
    ∃ statement ∈ program, ∃ behind, inner = statement.target.quotation.toList ++ behind := by
  induction program with
  | nil => exact absurd (List.suffix_nil.mp inside) (List.cons_ne_nil _ _)
  | cons statement program ih =>
      obtain ⟨gap, feeds, whole⟩ := sourceOf_cons statement program
      have plain : '(' ∉ gap := fun member => absurd (feeds member) (by decide)
      rw [whole] at inside
      rcases Statement.exists_quotation inside with here | later
      · exact ⟨statement, List.mem_cons_self, here⟩
      · obtain ⟨other, listed, found⟩ := ih (suffix_of_unopened plain later)
        exact ⟨other, List.mem_cons_of_mem _ listed, found⟩

/-- A call that is found in a program is that of a statement. -/
theorem exists_target_of_mem_scan {form : Form} {ref : List Char} (listed : form ∈ callForms)
    (found : ref ∈ form.scan (sourceOf program).toList) :
    ∃ statement ∈ program, statement.target.text.toList = ref := by
  obtain ⟨start, rest, outer, read⟩ :=
    Form.exists_read_of_mem_scan (forms_eq ▸ List.mem_cons_of_mem _ listed) found
  obtain ⟨name, -, place, inside, called⟩ := exists_call_of_read listed read
  obtain ⟨quotable, opening, closing, opens, closes, rfl⟩ := call_eq_some_iff.mp called
  -- However far the form reaches, its call opens at a parenthesis of the program.
  have parenthesis := (List.suffix_append name _).trans (inside.trans outer)
  obtain ⟨statement, member, behind, same⟩ := exists_quotation_of_suffix parenthesis
  rw [statement.target.toList_quotation] at same
  have target := statement.target.isQuotable
  have quote := statement.target.isQuote_quote
  exact ⟨statement, member,
    (cut_unique isQuote quotable.2 target.2 closes quote (List.cons.inj same).2).1.symm⟩

/-- The reference of a statement that calls is found. -/
theorem mem_extract_of_calls (listed : statement ∈ program)
    (calls : statement.lead.isImport = false) :
    statement.target.text ∈ extract (sourceOf program) := by
  obtain ⟨front, name, named, -, whole⟩ := Lead.exists_callName calls
  obtain ⟨rest, inside⟩ := exists_suffix_of_mem listed
  obtain ⟨lead, target⟩ := statement
  have quote := target.isQuote_quote
  have read : call name (name ++ '(' :: target.quote ::
      (target.text.toList ++ target.quote :: ')' :: ';' :: rest)) =
      some (target.text.toList, ';' :: rest) :=
    call_eq_some_iff.mpr ⟨target.isQuotable, _, _, quote, quote, rfl⟩
  apply mem_extract_of_call named _ read
  · intro closed
    exact Bool.false_ne_true (target.valid ')' (List.mem_of_mem_head? closed))
  · refine List.IsSuffix.trans ⟨front, ?_⟩ inside
    rw [Statement.toList_text, whole, target.toList_quotation, Lead.ending, calls]
    simp

private theorem extract_eq (source : String) :
    extract source =
      ((forms.flatMap fun form => form.scan source.toList).map String.ofList).eraseDups :=
  (eraseDups_map (fun _ _ same => String.ofList_injective same) _).symm

/-- What the import statements of a program refer to is found first, in their order. -/
theorem extract_sourceOf_eq (program : List Statement) :
    ∃ others, extract (sourceOf program) = (importReferences program).eraseDups ++ others ∧
      ∀ reference ∈ others, reference ∉ importReferences program := by
  have back : ((importReferences program).map String.toList).map String.ofList =
      importReferences program := by
    simp only [List.map_map, Function.comp_def, String.ofList_toList, List.map_id_fun', id_eq]
  rw [extract_eq, forms_eq, List.flatMap_cons, scan_sourceOf, List.map_append, back,
    List.eraseDups_append]
  refine ⟨_, rfl, ?_⟩
  intro reference member
  have kept := (List.mem_filter.mp (List.mem_eraseDups.mp member)).2
  simpa using kept

private theorem mem_extract_sourceOf_iff {reference : String} :
    reference ∈ extract (sourceOf program) ↔
      ∃ statement ∈ program, statement.target.text = reference := by
  constructor
  · intro found
    obtain ⟨form, listed, found⟩ := mem_extract_iff.mp found
    rw [forms_eq] at listed
    rcases List.mem_cons.mp listed with rfl | listed
    · rw [scan_sourceOf] at found
      obtain ⟨text, imported, spelled⟩ := List.mem_map.mp found
      obtain rfl := String.toList_injective spelled
      obtain ⟨statement, imports, same⟩ := List.mem_map.mp imported
      exact ⟨statement, (List.mem_filter.mp imports).1, same⟩
    · obtain ⟨statement, member, same⟩ := exists_target_of_mem_scan listed found
      exact ⟨statement, member, String.toList_injective same⟩
  · intro ⟨statement, member, same⟩
    rw [← same]
    cases kind : statement.lead.isImport with
    | false => exact mem_extract_of_calls member kind
    | true =>
        obtain ⟨others, whole, -⟩ := extract_sourceOf_eq program
        rw [whole, List.mem_append, List.mem_eraseDups]
        exact Or.inl (List.mem_map_of_mem (List.mem_filter.mpr ⟨member, kind⟩))

/-- The references that are found in a program are those of its statements, each once: first
those of the import statements in the order of their first occurrence, then those that stand
in no import statement. -/
theorem extract_sourceOf (program : List Statement) :
    (extract (sourceOf program)).Nodup ∧
    (∀ reference, reference ∈ extract (sourceOf program) ↔
      ∃ statement ∈ program, statement.target.text = reference) ∧
    ∃ others, extract (sourceOf program) = (importReferences program).eraseDups ++ others ∧
      ∀ reference ∈ others, reference ∉ importReferences program := by
  have nodup : (extract (sourceOf program)).Nodup := by
    rw [extract_eq]
    exact nodup_eraseDups _
  exact ⟨nodup, fun reference => mem_extract_sourceOf_iff, extract_sourceOf_eq program⟩

example :
    extract "const \x7b a, reimport \x7d = require('./c');\nimport import from \"./b\";" =
      ["./b", "./c"] := by
  decide +kernel

end Programs

end ModuleAtlas.Reference
