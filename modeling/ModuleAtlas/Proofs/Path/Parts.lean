import ModuleAtlas.Path

/-! # Parts of a path and their text

Splitting a text at slashes undoes joining parts with slashes, as long as every
part names something of its own (`ModuleAtlas.Path.partsOf_join`). So the text of
a path below another, read from that other path, spells the first one again
(`ModuleAtlas.Path.join_relativeText`), whether the first was read from a text or
reached by normalizing one.
-/

namespace ModuleAtlas

namespace Text

/-- The pieces between separators are those of the library's splitting. -/
theorem splitChars_eq_splitOn (separator : Char) (chars : List Char) :
    splitChars separator chars = chars.splitOn separator := by
  induction chars with
  | nil => rfl
  | cons c rest ih =>
      rw [List.splitOn_cons_eq_if_modifyHead, splitChars, ih]
      by_cases same : c = separator
      · simp only [same, ↓reduceIte, beq_self_eq_true]
      · simp only [same, ↓reduceIte, beq_iff_eq]
        cases pieces : rest.splitOn separator with
        | nil => exact absurd pieces (List.splitOn_ne_nil separator rest)
        | cons piece pieces => rfl

/-- The characters of joined texts. -/
theorem toList_join (separator : String) (texts : List String) :
    (join separator texts).toList = separator.toList.intercalate (texts.map String.toList) := by
  induction texts with
  | nil => rfl
  | cons first rest ih =>
      cases rest with
      | nil => simp only [join, List.map_cons, List.map_nil, List.intercalate_singleton]
      | cons second rest =>
          simp only [join, String.toList_append, ih, List.map_cons, List.intercalate_cons_cons,
            List.append_assoc]

/-- A character of joined texts stands in one of them or in a separator. -/
theorem mem_toList_join {separator : String} {texts : List String} {c : Char}
    (member : c ∈ (join separator texts).toList) :
    c ∈ separator.toList ∨ ∃ text ∈ texts, c ∈ text.toList := by
  induction texts with
  | nil => cases member
  | cons first rest ih =>
      cases rest with
      | nil => exact Or.inr ⟨first, List.mem_cons_self, member⟩
      | cons second rest =>
          simp only [join, String.toList_append, List.mem_append] at member
          rcases member with (inFirst | between) | inRest
          · exact Or.inr ⟨first, List.mem_cons_self, inFirst⟩
          · exact Or.inl between
          · apply (ih inRest).imp_right
            intro ⟨text, listed, inside⟩
            exact ⟨text, List.mem_cons_of_mem first listed, inside⟩

/-- Splitting undoes joining when no text has a separator in it. -/
theorem splitAt_join {texts : List String} (nonempty : texts ≠ [])
    (clean : ∀ text ∈ texts, '/' ∉ text.toList) : splitAt '/' (join "/" texts) = texts := by
  have cleanChars : ∀ chars ∈ texts.map String.toList, '/' ∉ chars := by
    intro chars member
    obtain ⟨text, inside, rfl⟩ := List.mem_map.mp member
    exact clean text inside
  have slash : "/".toList = ['/'] := rfl
  rw [splitAt, splitChars_eq_splitOn, toList_join, slash,
    List.splitOn_intercalate '/' cleanChars (by simpa using nonempty), List.map_map]
  simp only [String.ofList_comp_toList, List.map_id_fun, id_eq]

end Text

namespace Path

/-- Proper parts joined by slashes are read back. -/
theorem partsOf_join {parts : List String} (proper : ∀ part ∈ parts, IsProper part) :
    partsOf (Text.join "/" parts) = parts := by
  by_cases nonempty : parts = []
  · subst nonempty
    rfl
  · rw [partsOf, Text.splitAt_join nonempty fun part member => (proper part member).2]
    exact List.filter_eq_self.mpr fun part member => (proper part member).1

/-- A text of proper parts does not start with a slash. -/
theorem rootOf_join {parts : List String} (proper : ∀ part ∈ parts, IsProper part) :
    rootOf (Text.join "/" parts).toList = .relative := by
  cases parts with
  | nil => rfl
  | cons first rest =>
      obtain ⟨named, clean⟩ := proper first (by simp only [List.mem_cons, true_or])
      have nonempty : first.toList ≠ [] := by
        intro empty
        have blank : first = "" := String.toList_inj.mp empty
        simp [isPart, blank] at named
      obtain ⟨c, chars, spelled⟩ := List.exists_cons_of_ne_nil nonempty
      have noSlash : c ≠ '/' := by
        intro same
        simp [spelled, same] at clean
      have starts : ∃ others, (Text.join "/" (first :: rest)).toList = c :: others := by
        cases rest with
        | nil => exact ⟨chars, spelled⟩
        | cons second rest =>
            exact ⟨chars ++ "/".toList ++ (Text.join "/" (second :: rest)).toList,
              by simp [Text.join, spelled]⟩
      obtain ⟨others, text⟩ := starts
      rw [text]
      unfold rootOf
      split <;> simp_all

/-- The text of proper relative parts spells the path with these parts. -/
theorem ofString_relativeText {parts : List String} (proper : ∀ part ∈ parts, IsProper part) :
    ofString (relativeText parts) = ⟨.relative, parts, proper⟩ := by
  cases parts with
  | nil => rfl
  | cons first rest =>
      have text : relativeText (first :: rest) = Text.join "/" (first :: rest) := rfl
      apply eq_of_parts
      · rw [text]
        exact rootOf_join proper
      · rw [text]
        exact partsOf_join proper

/-- Proper relative parts read from a path are written behind its own. -/
theorem join_relativeText (base : Path) {parts : List String}
    (proper : ∀ part ∈ parts, IsProper part) :
    base.join (relativeText parts) = base.extend parts proper := by
  rw [join, ofString_relativeText proper]
  rfl

/-- What is left behind a start completes it. -/
theorem eq_append_of_behind {base parts rest : List String}
    (found : behind base parts = some rest) : parts = base ++ rest := by
  induction base generalizing parts with
  | nil => exact Option.some.inj found
  | cons first base ih =>
      cases parts with
      | nil => simp only [behind, reduceCtorEq] at found
      | cons part parts =>
          by_cases same : first = part
          · subst same
            simp only [behind, ↓reduceIte] at found
            rw [ih found, List.cons_append]
          · simp only [behind, same, ↓reduceIte, reduceCtorEq] at found

section Below

variable {path base : Path} {rest : List String}

/-- A path below another has its root and its parts first. -/
theorem root_and_parts_of_relativeTo? (below : path.relativeTo? base = some rest) :
    path.root = base.root ∧ path.parts = base.parts ++ rest := by
  unfold relativeTo? at below
  split at below
  · next same => exact ⟨same, eq_append_of_behind below⟩
  · cases below

/-- What leads from a base to a path consists of proper parts. -/
theorem isProper_of_relativeTo? (below : path.relativeTo? base = some rest) :
    ∀ part ∈ rest, IsProper part := by
  intro part member
  apply path.proper part
  rw [(root_and_parts_of_relativeTo? below).2]
  exact List.mem_append_right base.parts member

/-- A path is its base extended by what leads from there to it. -/
theorem eq_of_relativeTo? (below : path.relativeTo? base = some rest) :
    path = base.extend rest (isProper_of_relativeTo? below) :=
  eq_of_parts (root_and_parts_of_relativeTo? below).1 (root_and_parts_of_relativeTo? below).2

/-- A path below another is spelled by its relative text, read from the other. -/
theorem join_relativeText_of_relativeTo? (below : path.relativeTo? base = some rest) :
    base.join (relativeText rest) = path := by
  rw [join_relativeText base (isProper_of_relativeTo? below), ← eq_of_relativeTo? below]

end Below

/-- What one part does to the parts already passed, kept in reverse. -/
def advance (rooted : Bool) (passed : List String) (part : String) : List String :=
  if part ≠ ".." then part :: passed
  else
    match passed with
    | [] => if rooted then [] else [".."]
    | last :: before => if last = ".." then ".." :: last :: before else before

/-- Cancelling advances over the parts one by one. -/
theorem cancel_eq_foldl (rooted : Bool) (passed rest : List String) :
    cancel rooted passed rest = (rest.foldl (advance rooted) passed).reverse := by
  induction rest generalizing passed with
  | nil => rw [cancel, List.foldl_nil]
  | cons part rest ih =>
      rw [List.foldl_cons, ← ih]
      unfold advance
      cases passed with
      | nil =>
          rw [cancel]
          split
          · rfl
          · cases rooted <;> rfl
      | cons last before =>
          rw [cancel]
          split
          · rfl
          · by_cases again : last = ".." <;> simp only [again, ↓reduceIte]

end Path

end ModuleAtlas
