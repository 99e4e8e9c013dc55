import ModuleAtlas.FileTree.Basic
import ModuleAtlas.Proofs.Path.Parts

/-! # Normal names

A name below a root is normal if no piece between its slashes is empty, a dot or two
dots (`ModuleAtlas.Path.IsNormal`). Below a root without `..`, the path of a normal
name is its own normal form, so no two normal names lead to one place as far as the
text goes (`ModuleAtlas.Path.IsNormal.eq_of_normalize_join_eq`). Normalizing an
absolute path leaves no `..` in it, and neither does writing an extension or an index
file behind its text.
-/

namespace ModuleAtlas

namespace Text

/-- Joining undoes splitting. -/
theorem join_splitAt (s : String) : join "/" (splitAt '/' s) = s := by
  apply String.toList_inj.mp
  have chars : ((splitChars '/' s.toList).map String.ofList).map String.toList =
      splitChars '/' s.toList := by
    simp [List.map_map, Function.comp_def]
  rw [toList_join, splitAt, chars, splitChars_eq_splitOn]
  exact List.intercalate_splitOn '/'

/-- A text without the separator is one piece. -/
theorem splitChars_of_notMem {separator : Char} {chars : List Char} (clean : separator ∉ chars) :
    splitChars separator chars = [chars] := by
  induction chars with
  | nil => rfl
  | cons c rest ih =>
      rw [List.mem_cons, not_or] at clean
      rw [splitChars, if_neg (Ne.symm clean.1), ih clean.2]

/-- A text without a slash is its own only piece. -/
theorem splitAt_of_notMem {s : String} (clean : '/' ∉ s.toList) : splitAt '/' s = [s] := by
  rw [splitAt, splitChars_of_notMem clean, List.map_singleton, String.ofList_toList]

/-- Splitting at a separator splits what stands before it and what stands behind it. -/
theorem splitChars_append_cons (separator : Char) (chars rest : List Char) :
    splitChars separator (chars ++ separator :: rest) =
      splitChars separator chars ++ splitChars separator rest := by
  induction chars with
  | nil => simp only [List.nil_append, splitChars, ↓reduceIte, List.cons_append]
  | cons c chars ih =>
      rw [List.cons_append, splitChars, splitChars, ih]
      by_cases same : c = separator
      · simp only [same, ↓reduceIte, List.cons_append]
      · simp only [same, ↓reduceIte]
        cases split : splitChars separator chars with
        | nil =>
            rw [splitChars_eq_splitOn] at split
            exact absurd split (List.splitOn_ne_nil separator chars)
        | cons piece pieces => rfl

/-- What holds no separator is written behind the last piece. -/
theorem exists_splitChars_append {separator : Char} {tail : List Char} (clean : separator ∉ tail)
    (chars : List Char) :
    ∃ front last, splitChars separator chars = front ++ [last] ∧
      splitChars separator (chars ++ tail) = front ++ [last ++ tail] := by
  induction chars with
  | nil => exact ⟨[], [], rfl, splitChars_of_notMem clean⟩
  | cons c chars ih =>
      obtain ⟨front, last, split, extended⟩ := ih
      rw [List.cons_append, splitChars, splitChars, split, extended]
      by_cases same : c = separator
      · simp only [same, ↓reduceIte]
        exact ⟨[] :: front, last, rfl, rfl⟩
      · simp only [same, ↓reduceIte]
        cases front with
        | nil => exact ⟨[], c :: last, rfl, rfl⟩
        | cons first front => exact ⟨(c :: first) :: front, last, rfl, rfl⟩

end Text

namespace Path

/-- A name in which no piece between slashes is empty, a dot or two dots. -/
def IsNormal (name : String) : Prop :=
  ∀ piece ∈ Text.splitAt '/' name, piece ≠ "" ∧ piece ≠ "." ∧ piece ≠ ".."

instance (name : String) : Decidable (IsNormal name) :=
  inferInstanceAs (Decidable (∀ piece ∈ Text.splitAt '/' name, _))

private theorem isNormal_join {parts : List String} (nonempty : parts ≠ [])
    (proper : ∀ part ∈ parts, IsProper part) (plain : ".." ∉ parts) :
    IsNormal (Text.join "/" parts) := by
  unfold IsNormal
  rw [Text.splitAt_join nonempty fun part member => (proper part member).2]
  intro part member
  have named := (proper part member).1
  simp only [isPart, ne_eq, decide_not, Bool.and_eq_true, Bool.not_eq_eq_eq_not, Bool.not_true,
    decide_eq_false_iff_not] at named
  exact ⟨named.1, named.2, fun same => plain (same ▸ member)⟩

/-- Proper parts spell a normal name exactly when none of them leads upwards. -/
theorem isNormal_relativeText_iff {parts : List String} (nonempty : parts ≠ [])
    (proper : ∀ part ∈ parts, IsProper part) :
    IsNormal (relativeText parts) ↔ ".." ∉ parts := by
  have spelled : relativeText parts = Text.join "/" parts := by
    rw [relativeText, List.isEmpty_eq_false_iff.mpr nonempty]
    rfl
  rw [spelled]
  constructor
  · intro normal dots
    have pieces := Text.splitAt_join nonempty fun part member => (proper part member).2
    exact (normal ".." (pieces.symm ▸ dots)).2.2 rfl
  · exact isNormal_join nonempty proper

section Normal

variable {base : Path} {name : String}

/-- The pieces of a normal name are proper parts. -/
theorem IsNormal.isProper (normal : IsNormal name) :
    ∀ part ∈ Text.splitAt '/' name, IsProper part := by
  intro part member
  obtain ⟨nonempty, undotted, -⟩ := normal part member
  refine isProper_of_mem_partsOf (List.mem_filter.mpr ⟨member, ?_⟩)
  simp only [isPart, ne_eq, nonempty, not_false_eq_true, decide_true, undotted, Bool.and_self]

/-- A text is spelled by its own pieces. -/
theorem relativeText_splitAt (name : String) : relativeText (Text.splitAt '/' name) = name := by
  have nonempty : Text.splitAt '/' name ≠ [] := by
    rw [Text.splitAt, Text.splitChars_eq_splitOn, ne_eq, List.map_eq_nil_iff]
    exact List.splitOn_ne_nil '/' name.toList
  rw [relativeText, List.isEmpty_eq_false_iff.mpr nonempty]
  exact Text.join_splitAt name

/-- Joining a normal name appends its pieces to the base. -/
theorem IsNormal.join_eq (normal : IsNormal name) (base : Path) :
    base.join name = base.extend (Text.splitAt '/' name) normal.isProper := by
  have joined := join_relativeText base normal.isProper
  rwa [relativeText_splitAt] at joined

end Normal

/-- Without `..` there is nothing to cancel. -/
theorem foldl_advance_of_notMem (rooted : Bool) {rest : List String} (plain : ".." ∉ rest)
    (passed : List String) : rest.foldl (advance rooted) passed = rest.reverse ++ passed := by
  induction rest generalizing passed with
  | nil => rfl
  | cons part rest ih =>
      rw [List.mem_cons, not_or] at plain
      have pushed : advance rooted passed part = part :: passed := if_pos (Ne.symm plain.1)
      rw [List.foldl_cons, pushed, ih plain.2, List.reverse_cons, List.append_assoc]
      rfl

/-- A path that never leads upwards is its own reduced form. -/
theorem normalize_of_notMem {path : Path} (plain : ".." ∉ path.parts) : path.normalize = path := by
  refine eq_of_parts rfl ?_
  rw [parts_normalize, cancel_eq_foldl, foldl_advance_of_notMem _ plain, List.append_nil,
    List.reverse_reverse]

/-- Below a root every `..` is cancelled. -/
theorem notMem_foldl_advance {passed : List String} (plain : ".." ∉ passed) (rest : List String) :
    ".." ∉ rest.foldl (advance true) passed := by
  induction rest generalizing passed with
  | nil => exact plain
  | cons part rest ih =>
      apply ih
      unfold advance
      split
      · next named =>
          rw [List.mem_cons, not_or]
          exact ⟨Ne.symm named, plain⟩
      · cases passed with
        | nil => exact plain
        | cons last before =>
            rw [List.mem_cons, not_or] at plain
            dsimp only
            rw [if_neg (Ne.symm plain.1)]
            exact plain.2

/-- The reduced form of an absolute path never leads upwards. -/
theorem notMem_parts_normalize {path : Path} (absolute : path.isAbsolute = true) :
    ".." ∉ path.normalize.parts := by
  rw [parts_normalize, absolute, cancel_eq_foldl, List.mem_reverse]
  exact notMem_foldl_advance List.not_mem_nil path.parts

section Normal

variable {base : Path} {left right : String}

/-- A normal name joined to a base that never leads upwards needs no reduction. -/
theorem IsNormal.normalize_join (normal : IsNormal left) (plain : ".." ∉ base.parts) :
    (base.join left).normalize = base.join left := by
  apply normalize_of_notMem
  rw [normal.join_eq, parts_extend, List.mem_append, not_or]
  exact ⟨plain, fun member => (normal ".." member).2.2 rfl⟩

/-- Two normal names whose paths have the same parts are one name. -/
theorem IsNormal.eq_of_parts_join_eq (leftNormal : IsNormal left) (rightNormal : IsNormal right)
    (same : (base.join left).parts = (base.join right).parts) : left = right := by
  rw [leftNormal.join_eq, rightNormal.join_eq] at same
  have pieces : Text.splitAt '/' left = Text.splitAt '/' right := List.append_cancel_left same
  rw [← Text.join_splitAt left, pieces, Text.join_splitAt]

/-- Two normal names whose paths have one normal form are one name. -/
theorem IsNormal.eq_of_normalize_join_eq (leftNormal : IsNormal left)
    (rightNormal : IsNormal right) (plain : ".." ∉ base.parts)
    (same : (base.join left).normalize = (base.join right).normalize) : left = right := by
  rw [leftNormal.normalize_join plain, rightNormal.normalize_join plain] at same
  exact leftNormal.eq_of_parts_join_eq rightNormal (congrArg Path.parts same)

end Normal

private theorem dots_mem_partsOf {s : String} :
    ".." ∈ partsOf s ↔ ['.', '.'] ∈ Text.splitChars '/' s.toList := by
  unfold partsOf Text.splitAt
  rw [List.mem_filter, List.mem_map]
  constructor
  · rintro ⟨⟨chars, member, same⟩, -⟩
    have dots : chars = ['.', '.'] := String.ofList_injective same
    exact dots ▸ member
  · intro member
    exact ⟨⟨_, member, rfl⟩, rfl⟩

/-- A text without slashes that is not all dots may be written behind another. -/
theorem dots_notMem_partsOf_append {s tail : String} (plain : ".." ∉ partsOf s)
    (clean : '/' ∉ tail.toList) (named : ∃ c ∈ tail.toList, c ≠ '.') :
    ".." ∉ partsOf (s ++ tail) := by
  rw [dots_mem_partsOf] at plain ⊢
  obtain ⟨front, last, split, extended⟩ := Text.exists_splitChars_append clean s.toList
  rw [String.toList_append, extended, List.mem_append, List.mem_singleton, not_or]
  rw [split, List.mem_append, not_or] at plain
  refine ⟨plain.1, fun same => ?_⟩
  obtain ⟨c, member, noDot⟩ := named
  have dot : c ∈ ['.', '.'] := same ▸ List.mem_append_right last member
  simp only [List.mem_cons, List.not_mem_nil, or_false, or_self] at dot
  exact noDot dot

/-- A name with a character besides dots brings no part that leads upwards. -/
theorem dots_notMem_partsOf_joinText {directory name : String} (plain : ".." ∉ partsOf directory)
    (clean : '/' ∉ name.toList) (named : ∃ c ∈ name.toList, c ≠ '.') :
    ".." ∉ partsOf (joinText directory name) := by
  unfold joinText
  split
  · exact dots_notMem_partsOf_append plain clean named
  · refine dots_notMem_partsOf_append ?_ clean named
    have slash : "/".toList = ['/'] := rfl
    rw [dots_mem_partsOf] at plain ⊢
    rw [String.toList_append, slash, Text.splitChars_append_cons, List.mem_append, not_or]
    exact ⟨plain, by simp [Text.splitChars]⟩

end Path

/-- The name of an entry holds no NUL. -/
theorem nul_notMem_of_isEntryName {name : String} (valid : isEntryName name = true) :
    '\x00' ∉ name.toList := by
  simp only [isEntryName, Bool.and_eq_true, Bool.not_eq_true', List.contains_eq_mem,
    decide_eq_false_iff_not] at valid
  exact valid.1.2

/-- Names of entries, joined by slashes, spell a normal name. -/
theorem isNormal_join_of_isEntryName {names : List String} (nonempty : names ≠ [])
    (valid : ∀ name ∈ names, isEntryName name = true) : Path.IsNormal (Text.join "/" names) := by
  apply Path.isNormal_join nonempty
  · intro name member
    exact (isProper_of_isEntryName (valid name member)).1
  · intro member
    exact (isProper_of_isEntryName (valid ".." member)).2 rfl

end ModuleAtlas
