import Mathlib.Data.List.Infix
import ModuleAtlas.Reference.Extract

/-! # What is found in an arbitrary text

Each form looks for a reference between quotes somewhere behind its start
(`ModuleAtlas.Reference.exists_quoted_of_read`), so whatever a search finds stands between
quotes. A search goes on behind what it found and may step over the start of another match.
A match that no earlier one reaches into is found (`ModuleAtlas.Reference.Form.mem_scan_of_apart`);
two calls overlap only if the reference of the second begins with the parenthesis that
closes the first (`ModuleAtlas.Reference.call_apart`).
-/

namespace ModuleAtlas.Reference

open Text

/-- A text that can stand between quotes. -/
def IsQuotable (ref : List Char) : Prop := ref ≠ [] ∧ ∀ c ∈ ref, isQuote c = false

/-- The word that begins an import statement and names the call that loads a module later. -/
def importWord : List Char := ['i', 'm', 'p', 'o', 'r', 't']

/-- The names of the calls that load a module. -/
def callNames : List (List Char) := [requireWord, importWord]

/-- The form of an import statement. -/
def importForm : Form := ⟨importStatement, length_importStatement⟩

/-- The form of a call that loads a module. -/
def callForm (name : List Char) : Form := ⟨call name, length_call⟩

/-- The forms that hold a call. -/
def callForms : List Form := forms.tail

/-- The forms of a reference are the import statement and the calls. -/
theorem forms_eq : forms = importForm :: callForms := rfl

section Lists

variable {front back suffix : List Char}

/-- A suffix starts behind the front part of a list or inside it. -/
theorem suffix_append_cases (isSuffix : suffix <:+ front ++ back) :
    suffix <:+ back ∨ ∃ tail, tail <:+ front ∧ suffix = tail ++ back := by
  induction front with
  | nil => exact Or.inl isSuffix
  | cons c front ih =>
      rcases List.suffix_cons_iff.mp isSuffix with whole | inside
      · exact Or.inr ⟨c :: front, List.suffix_rfl, whole⟩
      · apply (ih inside).imp_right
        intro ⟨tail, isTail, same⟩
        exact ⟨tail, isTail.trans (List.suffix_cons c front), same⟩

/-- A list is cut in one way at the first character of a kind. -/
theorem cut_unique (kind : Char → Bool) {first second rest other : List Char} {c d : Char}
    (before : ∀ x ∈ first, kind x = false) (earlier : ∀ x ∈ second, kind x = false)
    (here : kind c = true) (there : kind d = true)
    (same : first ++ c :: rest = second ++ d :: other) :
    first = second ∧ c = d ∧ rest = other := by
  induction first generalizing second with
  | nil =>
      cases second with
      | nil => exact ⟨rfl, List.cons.inj same⟩
      | cons x second =>
          obtain ⟨rfl, -⟩ := List.cons.inj same
          rw [earlier c List.mem_cons_self] at here
          cases here
  | cons x first ih =>
      cases second with
      | nil =>
          obtain ⟨rfl, -⟩ := List.cons.inj same
          rw [before x List.mem_cons_self] at there
          cases there
      | cons y second =>
          obtain ⟨rfl, behind⟩ := List.cons.inj same
          obtain ⟨rfl, rest⟩ := ih (List.forall_mem_cons.mp before).2
            (List.forall_mem_cons.mp earlier).2 behind
          exact ⟨rfl, rest⟩

end Lists

section Pieces

variable {s ref rest : List Char}

/-- A literal is read exactly from a text that begins with it. -/
theorem literal_eq_some_iff {word : List Char} : literal word s = some rest ↔ s = word ++ rest := by
  induction word generalizing s with
  | nil => rw [literal, Option.some.injEq, List.nil_append]
  | cons c word ih =>
      cases s with
      | nil => simp only [literal, reduceCtorEq, List.cons_append, List.nil_eq]
      | cons d s =>
          by_cases same : c = d
          · rw [literal, if_pos same, ih, same, List.cons_append, List.cons.injEq,
              and_iff_right rfl]
          · simp only [literal, same, ↓reduceIte, reduceCtorEq, List.cons_append, List.cons.injEq,
              Ne.symm same, false_and]

private theorem literal_suffix {word : List Char} (found : literal word s = some rest) :
    rest <:+ s :=
  ⟨word, (literal_eq_some_iff.mp found).symm⟩

private theorem run_suffix {inside : Char → Bool} (found : run inside s = some rest) :
    rest <:+ s := by
  cases s with
  | nil => cases found
  | cons c s =>
      rw [run, Option.ite_none_right_eq_some, Option.some.injEq] at found
      obtain ⟨-, rfl⟩ := found
      exact (List.dropWhile_suffix inside).trans (List.suffix_cons c s)

private theorem braced_suffix (found : braced s = some rest) : rest <:+ s := by
  obtain ⟨inner, opened, closed⟩ := Option.bind_eq_some_iff.mp found
  exact (literal_suffix closed).trans ((List.dropWhile_suffix _).trans (literal_suffix opened))

private theorem bracedSome_suffix (found : bracedSome s = some rest) : rest <:+ s := by
  obtain ⟨inner, opened, found⟩ := Option.bind_eq_some_iff.mp found
  obtain ⟨behind, held, closed⟩ := Option.bind_eq_some_iff.mp found
  exact (literal_suffix closed).trans ((run_suffix held).trans (literal_suffix opened))

private theorem importedNames_suffix (found : importedNames s = some rest) : rest <:+ s := by
  unfold importedNames at found
  split at found
  · exact braced_suffix found
  · obtain ⟨behind, gap, found⟩ := Option.bind_eq_some_iff.mp found
    obtain ⟨word, spelled, found⟩ := Option.bind_eq_some_iff.mp found
    obtain ⟨name, space, named⟩ := Option.bind_eq_some_iff.mp found
    apply List.IsSuffix.trans _ (List.suffix_cons _ _)
    exact (run_suffix named).trans ((run_suffix space).trans
      ((literal_suffix spelled).trans (run_suffix gap)))
  · exact run_suffix found

private theorem importClause_suffix (found : importClause s = some rest) : rest <:+ s := by
  obtain ⟨names, named, found⟩ := Option.bind_eq_some_iff.mp found
  obtain ⟨behind, gap, found⟩ := Option.bind_eq_some_iff.mp found
  obtain ⟨word, spelled, space⟩ := Option.bind_eq_some_iff.mp found
  exact (run_suffix space).trans ((literal_suffix spelled).trans
    ((run_suffix gap).trans (importedNames_suffix named)))

private theorem declarator_suffix (found : declarator s = some rest) : rest <:+ s := by
  unfold declarator at found
  split at found
  · exact literal_suffix found
  · exact literal_suffix found
  · exact literal_suffix found
  · cases found

/-- A quotable text between any two quotes is read back. -/
theorem quotedReference_of_isQuotable {opening closing : Char} (quotable : IsQuotable ref)
    (opens : isQuote opening = true) (closes : isQuote closing = true) (rest : List Char) :
    quotedReference (opening :: (ref ++ closing :: rest)) = some (ref, rest) := by
  have pass : ∀ c ∈ ref, (!isQuote c) = true := fun c member => by rw [quotable.2 c member]; rfl
  have taken : (ref ++ closing :: rest).takeWhile (!isQuote ·) = ref := by
    rw [List.takeWhile_append_of_pos pass]
    simp only [closes, Bool.not_true, Bool.false_eq_true, not_false_eq_true,
      List.takeWhile_cons_of_neg, List.append_nil]
  have left : (ref ++ closing :: rest).dropWhile (!isQuote ·) = closing :: rest := by
    rw [List.dropWhile_append_of_pos pass]
    simp only [closes, Bool.not_true, Bool.false_eq_true, not_false_eq_true,
      List.dropWhile_cons_of_neg]
  simp [quotedReference, taken, left, opens, quotable.1]

private theorem quotedReference_eq_some_iff :
    quotedReference s = some (ref, rest) ↔
      IsQuotable ref ∧ ∃ opening closing, isQuote opening = true ∧ isQuote closing = true ∧
        s = opening :: (ref ++ closing :: rest) := by
  constructor
  · intro found
    cases s with
    | nil => cases found
    | cons opening s =>
        rw [quotedReference, Option.ite_none_right_eq_some, Bool.and_eq_true] at found
        obtain ⟨⟨opens, held⟩, found⟩ := found
        split at found
        · cases found
        · next closing behind split =>
            cases found
            have closes := List.head?_dropWhile_not (!isQuote ·) s
            rw [split] at closes
            have whole := List.takeWhile_append_dropWhile (p := (!isQuote ·)) (l := s)
            rw [split] at whole
            refine ⟨⟨by simpa using held, fun c member => ?_⟩, opening, closing, opens, ?_, ?_⟩
            · simpa only [Bool.not_eq_eq_eq_not, Bool.not_true]
                using List.all_eq_true.mp List.all_takeWhile c member
            · simpa only [List.head?_cons, Bool.not_eq_eq_eq_not, Bool.not_false] using closes
            · rw [whole]
  · intro quoted
    obtain ⟨quotable, opening, closing, opens, closes, rfl⟩ := quoted
    exact quotedReference_of_isQuotable quotable opens closes rest

/-- A call is read exactly from its name, a bracket and a quoted reference, with no blank. -/
theorem call_eq_some_iff {name : List Char} :
    call name s = some (ref, rest) ↔
      IsQuotable ref ∧ ∃ opening closing, isQuote opening = true ∧ isQuote closing = true ∧
        s = name ++ '(' :: opening :: (ref ++ closing :: ')' :: rest) := by
  simp only [call, Option.bind_eq_bind, Option.bind_eq_some_iff, literal_eq_some_iff, Prod.exists,
    quotedReference_eq_some_iff]
  constructor
  · intro found
    obtain ⟨opened, start, other, behind, quoted, last, stop, same⟩ := found
    obtain ⟨quotable, opening, closing, opens, closes, inner⟩ := quoted
    cases same
    refine ⟨quotable, opening, closing, opens, closes, ?_⟩
    rw [start, inner, stop, List.append_assoc]
    rfl
  · intro quoted
    obtain ⟨quotable, opening, closing, opens, closes, whole⟩ := quoted
    refine ⟨_, ?_, ref, _, ⟨quotable, opening, closing, opens, closes, rfl⟩, rest, rfl, rfl⟩
    rw [whole, List.append_assoc]
    rfl

end Pieces

section Reads

variable {s ref rest : List Char}

private theorem quotedReference_suffix (found : quotedReference s = some (ref, rest)) :
    rest <:+ s := by
  obtain ⟨-, opening, closing, -, -, rfl⟩ := quotedReference_eq_some_iff.mp found
  exact ⟨opening :: (ref ++ [closing]), by simp⟩

private theorem call_suffix {name : List Char} (found : call name s = some (ref, rest)) :
    rest <:+ s := by
  obtain ⟨-, opening, closing, -, -, rfl⟩ := call_eq_some_iff.mp found
  exact ⟨name ++ '(' :: opening :: (ref ++ [closing, ')']), by simp⟩

private theorem exists_quoted_of_call {name : List Char} (found : call name s = some (ref, rest)) :
    ∃ inner behind, inner <:+ s ∧ quotedReference inner = some (ref, behind) := by
  obtain ⟨inner, opened, found⟩ := Option.bind_eq_some_iff.mp found
  obtain ⟨⟨other, behind⟩, quoted, found⟩ := Option.bind_eq_some_iff.mp found
  obtain ⟨last, closed, same⟩ := Option.bind_eq_some_iff.mp found
  cases same
  exact ⟨inner, behind, literal_suffix opened, quoted⟩

private theorem exists_quoted_of_importStatement (found : importStatement s = some (ref, rest)) :
    ∃ inner, inner <:+ s ∧ quotedReference inner = some (ref, rest) := by
  obtain ⟨word, spelled, found⟩ := Option.bind_eq_some_iff.mp found
  obtain ⟨behind, gap, found⟩ := Option.bind_eq_some_iff.mp found
  have start := (run_suffix gap).trans (literal_suffix spelled)
  split at found
  · next inner clause => exact ⟨inner, (importClause_suffix clause).trans start, found⟩
  · exact ⟨behind, start, found⟩

private theorem exists_call_of_assignedRequire (found : assignedRequire s = some (ref, rest)) :
    ∃ inner, inner <:+ s ∧ call requireWord inner = some (ref, rest) := by
  obtain ⟨behind, sign, found⟩ := Option.bind_eq_some_iff.mp found
  refine ⟨_, ?_, found⟩
  exact (List.dropWhile_suffix _).trans ((literal_suffix sign).trans (List.dropWhile_suffix _))

private theorem exists_call_of_requireDeclaration
    (found : requireDeclaration s = some (ref, rest)) :
    ∃ inner, inner <:+ s ∧ call requireWord inner = some (ref, rest) := by
  obtain ⟨word, spelled, found⟩ := Option.bind_eq_some_iff.mp found
  obtain ⟨names, gap, found⟩ := Option.bind_eq_some_iff.mp found
  have start := (run_suffix gap).trans (declarator_suffix spelled)
  split at found
  · obtain ⟨behind, named, found⟩ := Option.bind_eq_some_iff.mp found
    obtain ⟨inner, suffix, called⟩ := exists_call_of_assignedRequire found
    exact ⟨inner, suffix.trans ((braced_suffix named).trans start), called⟩
  · obtain ⟨behind, named, found⟩ := Option.bind_eq_some_iff.mp found
    obtain ⟨inner, suffix, called⟩ := exists_call_of_assignedRequire found
    exact ⟨inner, suffix.trans ((run_suffix named).trans start), called⟩

private theorem exists_call_of_requireParts (found : requireParts s = some (ref, rest)) :
    ∃ inner, inner <:+ s ∧ call requireWord inner = some (ref, rest) := by
  obtain ⟨word, spelled, found⟩ := Option.bind_eq_some_iff.mp found
  obtain ⟨behind, named, found⟩ := Option.bind_eq_some_iff.mp found
  obtain ⟨inner, suffix, called⟩ := exists_call_of_assignedRequire found
  exact ⟨inner, suffix.trans ((bracedSome_suffix named).trans
    ((List.dropWhile_suffix _).trans (literal_suffix spelled))), called⟩

private theorem exists_call_of_requireConstant (found : requireConstant s = some (ref, rest)) :
    ∃ inner, inner <:+ s ∧ call requireWord inner = some (ref, rest) := by
  obtain ⟨word, spelled, found⟩ := Option.bind_eq_some_iff.mp found
  split at found
  · cases found
  · next c names =>
      obtain ⟨-, found⟩ := Option.ite_none_right_eq_some.mp found
      obtain ⟨behind, gap, found⟩ := Option.bind_eq_some_iff.mp found
      obtain ⟨inner, suffix, called⟩ := exists_call_of_assignedRequire found
      exact ⟨inner, suffix.trans ((run_suffix gap).trans
        ((List.suffix_cons c names).trans (literal_suffix spelled))), called⟩

/-- All forms but the import statement read a call, or a call that something stands before. -/
theorem exists_call_of_read {form : Form} (listed : form ∈ callForms)
    (found : form.read s = some (ref, rest)) :
    ∃ name ∈ callNames, ∃ inner, inner <:+ s ∧ call name inner = some (ref, rest) := by
  have require : requireWord ∈ callNames := List.mem_cons_self
  simp only [callForms, forms, List.tail_cons, List.mem_cons, List.not_mem_nil, or_false] at listed
  rcases listed with rfl | rfl | rfl | rfl | rfl
  · exact ⟨requireWord, require, exists_call_of_requireDeclaration found⟩
  · exact ⟨requireWord, require, s, List.suffix_rfl, found⟩
  · exact ⟨importWord, List.mem_cons_of_mem _ List.mem_cons_self, s, List.suffix_rfl, found⟩
  · exact ⟨requireWord, require, exists_call_of_requireParts found⟩
  · exact ⟨requireWord, require, exists_call_of_requireConstant found⟩

/-- Each form finds its reference between quotes and leaves the end of what it reads. -/
theorem exists_quoted_of_read {form : Form} (listed : form ∈ forms)
    (found : form.read s = some (ref, rest)) :
    rest <:+ s ∧ ∃ inner behind, inner <:+ s ∧ quotedReference inner = some (ref, behind) := by
  rw [forms_eq] at listed
  rcases List.mem_cons.mp listed with rfl | listed
  · obtain ⟨inner, suffix, quoted⟩ := exists_quoted_of_importStatement found
    exact ⟨(quotedReference_suffix quoted).trans suffix, inner, rest, suffix, quoted⟩
  · obtain ⟨name, -, outer, start, called⟩ := exists_call_of_read listed found
    obtain ⟨inner, behind, suffix, quoted⟩ := exists_quoted_of_call called
    exact ⟨(call_suffix called).trans start, inner, behind, suffix.trans start, quoted⟩

end Reads

namespace Form

variable {form : Form} {s ref rest : List Char}

/-- Nothing is found in an empty text. -/
theorem scan_nil (form : Form) : form.scan [] = [] := by
  rw [scan.eq_def]

/-- What a form reads at the front comes first, and the scan goes on behind it. -/
theorem scan_of_read {c : Char} (found : form.read (c :: s) = some (ref, rest)) :
    form.scan (c :: s) = ref :: form.scan rest := by
  rw [scan.eq_def]
  dsimp only
  split
  · next found' => cases found.symm.trans found'; rfl
  · next none => cases found.symm.trans none

/-- Where a form reads nothing the scan goes on at the next character. -/
theorem scan_of_none {c : Char} (none : form.read (c :: s) = none) :
    form.scan (c :: s) = form.scan s := by
  rw [scan.eq_def]
  dsimp only
  split
  · next found => cases none.symm.trans found
  · rfl

/-- What a search finds was read somewhere in the text. -/
theorem exists_read_of_mem_scan (listed : form ∈ forms) (found : ref ∈ form.scan s) :
    ∃ inner rest, inner <:+ s ∧ form.read inner = some (ref, rest) := by
  induction s using scan.induct form with
  | case1 =>
      rw [scan_nil] at found
      cases found
  | case2 c s first rest read ih =>
      rw [scan_of_read read] at found
      rcases List.mem_cons.mp found with rfl | later
      · exact ⟨c :: s, rest, List.suffix_rfl, read⟩
      · obtain ⟨inner, behind, suffix, found⟩ := ih later
        exact ⟨inner, behind, suffix.trans (exists_quoted_of_read listed read).1, found⟩
  | case3 c s none ih =>
      rw [scan_of_none none] at found
      obtain ⟨inner, behind, suffix, found⟩ := ih found
      exact ⟨inner, behind, suffix.trans (List.suffix_cons c s), found⟩

/-- A search finds what can be read at a place that no match from further left reaches
over. -/
theorem mem_scan_of_apart {place : List Char} (inside : place <:+ s)
    (read : form.read place = some (ref, rest))
    (apart : ∀ {outer other later}, form.read outer = some (other, later) → place <:+ outer →
      place = outer ∨ place <:+ later) : ref ∈ form.scan s := by
  induction s using scan.induct form with
  | case1 =>
      rw [List.suffix_nil.mp inside] at read
      exact absurd (form.shorter read) (Nat.not_lt_zero _)
  | case2 c s first later found ih =>
      rw [scan_of_read found]
      rcases apart found inside with same | behind
      · cases (same ▸ read).symm.trans found
        exact List.mem_cons_self
      · exact List.mem_cons_of_mem first (ih behind)
  | case3 c s none ih =>
      rw [scan_of_none none]
      rcases List.suffix_cons_iff.mp inside with same | behind
      · cases (same ▸ read).symm.trans none
      · exact ih behind

end Form

section Calls

variable {name place outer ref rest other later : List Char}

/-- A character that delimits a reference in a call. -/
def isMark (c : Char) : Bool := isQuote c || c == '(' || c == ')'

private theorem isMark_of_isQuote {c : Char} (quote : isQuote c = true) : isMark c = true := by
  rw [isMark, quote]
  rfl

/-- A character that delimits nothing is no quote. -/
theorem isQuote_of_not_isMark {c : Char} (plain : isMark c = false) : isQuote c = false := by
  simp only [isMark, Bool.or_eq_false_iff] at plain
  exact plain.1.1

private theorem unmarked_of_mem_callNames (named : name ∈ callNames) :
    name ≠ [] ∧ ∀ c ∈ name, isMark c = false := by
  have unmarked : ∀ word ∈ callNames, (word ≠ [] && word.all (!isMark ·)) = true :=
    List.all_eq_true.mp rfl
  have both := unmarked name named
  simpa using both

/-- A call starts with a letter, so not at a mark. -/
theorem suffix_of_mark {c : Char} {s : List Char} (named : name ∈ callNames)
    (read : call name place = some (ref, rest)) (mark : isMark c = true)
    (inside : place <:+ c :: s) : place <:+ s := by
  apply (List.suffix_cons_iff.mp inside).resolve_left
  intro same
  obtain ⟨nonempty, unmarked⟩ := unmarked_of_mem_callNames named
  obtain ⟨letter, letters, rfl⟩ := List.exists_cons_of_ne_nil nonempty
  obtain ⟨-, opening, closing, -, -, here⟩ := call_eq_some_iff.mp read
  obtain ⟨rfl, -⟩ := List.cons.inj (same.symm.trans here)
  rw [unmarked c List.mem_cons_self] at mark
  cases mark

/-- A call does not reach over the start of another call of the same name, unless the
reference of the other one begins with a closing parenthesis. -/
theorem call_apart (named : name ∈ callNames) (read : call name place = some (ref, rest))
    (start : ref.head? ≠ some ')') (found : call name outer = some (other, later))
    (inside : place <:+ outer) : place = outer ∨ place <:+ later := by
  have unmarked := (unmarked_of_mem_callNames named).2
  obtain ⟨quotable, opening, closing, opens, closes, here⟩ := call_eq_some_iff.mp read
  obtain ⟨otherQuotable, first, last, firstOpens, lastCloses, there⟩ := call_eq_some_iff.mp found
  rw [there] at inside
  rcases suffix_append_cases inside with behind | ⟨tail, isTail, same⟩
  · have inner := suffix_of_mark named read (isMark_of_isQuote firstOpens)
      (suffix_of_mark named read rfl behind)
    rcases suffix_append_cases inner with behind | ⟨tail, isTail, same⟩
    · exact Or.inr (suffix_of_mark named read rfl
        (suffix_of_mark named read (isMark_of_isQuote lastCloses) behind))
    · -- The place starts in the other reference, so the quote that closes that one opens its own.
      have cut : (name ++ ['(']) ++ opening :: (ref ++ closing :: ')' :: rest) =
          tail ++ last :: ')' :: later := by
        rw [← same, here, List.append_assoc]
        rfl
      have quoteless : ∀ c ∈ name ++ ['('], isQuote c = false :=
        List.forall_mem_append.mpr ⟨fun c member => isQuote_of_not_isMark (unmarked c member),
          List.forall_mem_singleton.mpr rfl⟩
      obtain ⟨-, -, behind⟩ := cut_unique isQuote quoteless
        (fun c member => otherQuotable.2 c (isTail.subset member)) opens lastCloses cut
      obtain ⟨c, others, rfl⟩ := List.exists_cons_of_ne_nil quotable.1
      exact absurd (congrArg some (List.cons.inj behind).1) start
  · have closed {c : Char} (plain : isMark c = false) : (c == '(') = false := by
      simp only [isMark, Bool.or_eq_false_iff] at plain
      exact plain.1.2
    obtain ⟨rfl, -⟩ := cut_unique (· == '(') (fun c member => closed (unmarked c member))
      (fun c member => closed (unmarked c (isTail.subset member))) rfl rfl (here.symm.trans same)
    exact Or.inl (same.trans there.symm)

/-- The search for a call finds it wherever it stands. -/
theorem mem_scan_callForm {s : List Char} (named : name ∈ callNames) (inside : place <:+ s)
    (read : call name place = some (ref, rest)) (start : ref.head? ≠ some ')') :
    ref ∈ (callForm name).scan s :=
  Form.mem_scan_of_apart inside read fun found => call_apart named read start found

private theorem callForm_mem_forms (named : name ∈ callNames) : callForm name ∈ forms := by
  rcases List.mem_cons.mp named with rfl | named
  · exact .tail _ (.tail _ (.head _))
  · obtain rfl := List.mem_singleton.mp named
    exact .tail _ (.tail _ (.tail _ (.head _)))

end Calls

section Extract

variable {source : String} {ref : List Char}

/-- A reference is extracted exactly if the scan of one of the forms finds it. -/
theorem mem_extract_iff {reference : String} :
    reference ∈ extract source ↔ ∃ form ∈ forms, reference.toList ∈ form.scan source.toList := by
  simp only [extract, List.mem_map, List.mem_eraseDups, List.mem_flatMap]
  constructor
  · intro ⟨chars, found, same⟩
    rw [← same, String.toList_ofList]
    exact found
  · intro found
    exact ⟨reference.toList, found, String.ofList_toList⟩

/-- What is found stands between quotes. -/
theorem isQuoted_of_mem_extract {reference : String} (found : reference ∈ extract source) :
    IsQuotable reference.toList ∧
      ∃ before opening closing after, isQuote opening = true ∧ isQuote closing = true ∧
        source.toList = before ++ opening :: (reference.toList ++ closing :: after) := by
  obtain ⟨form, listed, found⟩ := mem_extract_iff.mp found
  obtain ⟨place, rest, outer, read⟩ := Form.exists_read_of_mem_scan listed found
  obtain ⟨-, inner, after, suffix, quoted⟩ := exists_quoted_of_read listed read
  obtain ⟨quotable, opening, closing, opens, closes, rfl⟩ := quotedReference_eq_some_iff.mp quoted
  obtain ⟨before, same⟩ := suffix.trans outer
  exact ⟨quotable, before, opening, closing, after, opens, closes, same.symm⟩

/-- A call anywhere in a text is found. -/
theorem mem_extract_of_call {name place rest : List Char} {reference : String}
    (named : name ∈ callNames) (inside : place <:+ source.toList)
    (read : call name place = some (reference.toList, rest))
    (start : reference.toList.head? ≠ some ')') : reference ∈ extract source :=
  mem_extract_iff.mpr ⟨callForm name, callForm_mem_forms named,
    mem_scan_callForm named inside read start⟩

end Extract

/-- A reference between two quotes of either kind. -/
def IsQuotation (quotation reference : String) : Prop :=
  ∃ opening closing, isQuote opening = true ∧ isQuote closing = true ∧
    quotation = String.singleton opening ++ reference ++ String.singleton closing

/-- Whatever the text, each reference that is found is not empty, holds no quote and stands
between two quotes there. And whatever stands around it, a call of `require` or `import` on
such a reference is found wherever it occurs, if the reference does not begin with a closing
parenthesis. -/
theorem extract_quoted_and_every_call (source : String) :
    (∀ reference ∈ extract source,
      reference ≠ "" ∧ (∀ c ∈ reference.toList, isQuote c = false) ∧
        ∃ before quotation after, IsQuotation quotation reference ∧
          source = before ++ quotation ++ after) ∧
    ∀ before name quotation after reference, name = "require" ∨ name = "import" →
      IsQuotation quotation reference → reference ≠ "" →
      (∀ c ∈ reference.toList, isQuote c = false) → reference.toList.head? ≠ some ')' →
      source = before ++ name ++ "(" ++ quotation ++ ")" ++ after →
      reference ∈ extract source := by
  constructor
  · intro reference found
    obtain ⟨⟨nonempty, quoteless⟩, before, opening, closing, after, opens, closes, same⟩ :=
      isQuoted_of_mem_extract found
    refine ⟨fun empty => nonempty (by rw [empty]; rfl), quoteless, String.ofList before, _,
      String.ofList after, ⟨opening, closing, opens, closes, rfl⟩, ?_⟩
    apply String.toList_injective
    simp [same]
  · intro before name quotation after reference named ⟨opening, closing, opens, closes, quoted⟩
      nonempty quoteless start whole
    have listed : name.toList ∈ callNames := by
      rcases named with rfl | rfl
      · exact List.mem_cons_self
      · exact List.mem_cons_of_mem _ List.mem_cons_self
    have quotable : IsQuotable reference.toList :=
      ⟨fun empty => nonempty (String.toList_injective empty), quoteless⟩
    have read := call_eq_some_iff.mpr
      ⟨quotable, opening, closing, opens, closes, @rfl _ (name.toList ++ '(' :: opening ::
        (reference.toList ++ closing :: ')' :: after.toList))⟩
    refine mem_extract_of_call listed ⟨before.toList, ?_⟩ read start
    simp [whole, quoted]

/-- A call in a comment, with quotes of two kinds and inside what an import statement
takes for its reference, is found. -/
theorem call_in_comment_is_found :
    IsQuotation "\"./a'" "./a" ∧ "./a" ∈ extract "it's /* import 'x require(\"./a') */" := by
  have quotation : IsQuotation "\"./a'" "./a" := ⟨'"', '\'', rfl, rfl, rfl⟩
  refine ⟨quotation, (extract_quoted_and_every_call _).2 "it's /* import 'x " "require" "\"./a'"
    " */" "./a" (Or.inl rfl) quotation (by decide) ?_ (by decide) rfl⟩
  simp [isQuote]

/-- The second call is stepped over: its quote closes the reference of the first, and its
parenthesis the first call. -/
example : extract "require('x require(')y')" = ["x require("] := by decide +kernel

end ModuleAtlas.Reference
