import Mathlib.Data.List.Infix
import ModuleAtlas.Proofs.Path.Parts
import ModuleAtlas.SourceFilter

/-! # What a filter lets pass

The path of a file below the root passes a filter exactly if no directory above the file holds an
excluded fragment in its path and the name of the file ends with one of the extensions
(`ModuleAtlas.SourceFilter.passes_iff`).
-/

namespace ModuleAtlas

/-- A text is found in another exactly if its characters stand there one after the other. -/
theorem Text.occursIn_iff {part chars : List Char} :
    Text.occursIn part chars = true ↔ part <:+: chars := by
  induction chars with
  | nil => rw [Text.occursIn, List.isEmpty_iff, List.infix_nil]
  | cons c rest ih =>
      rw [Text.occursIn, Bool.or_eq_true, ih, List.isPrefixOf_iff_prefix, List.infix_cons_iff]

namespace SourceFilter

/-- The file at the end of some parts passes a filter. -/
structure Passes (filter : SourceFilter) (parts : List String) : Prop where
  /-- No directory above the file has an excluded fragment in its path. -/
  spared : ∀ above below, parts = above ++ below → above ≠ [] → below ≠ [] →
    ∀ fragment ∈ filter.excluded, ¬ fragment.toList <:+: (Text.join "/" above).toList
  /-- The name of the file ends with an extension. -/
  named : ∃ extension ∈ filter.extensions,
    extension.toList <:+ (parts.getLast?.getD "").toList

variable {filter : SourceFilter} {parts : List String}

private theorem excludes_eq_false_iff {directory : String} : filter.excludes directory = false ↔
    ∀ fragment ∈ filter.excluded, ¬ fragment.toList <:+: directory.toList := by
  simp only [excludes, List.any_eq_false, Text.contains, Text.occursIn_iff]

private theorem dropLast_splitAt_relativeText (proper : ∀ part ∈ parts, Path.IsProper part) :
    (Text.splitAt '/' (Path.relativeText parts)).dropLast = parts.dropLast := by
  cases parts with
  | nil => decide +kernel
  | cons first rest =>
      have spelled : Path.relativeText (first :: rest) = Text.join "/" (first :: rest) := rfl
      rw [spelled, Text.splitAt_join (List.cons_ne_nil first rest) fun part member =>
        (proper part member).2]

private theorem ignores_eq_false_iff (proper : ∀ part ∈ parts, Path.IsProper part) :
    filter.ignores (Path.relativeText parts) = false ↔
      ∀ above below, parts = above ++ below → above ≠ [] → below ≠ [] →
        ∀ fragment ∈ filter.excluded, ¬ fragment.toList <:+: (Text.join "/" above).toList := by
  unfold ignores
  dsimp only
  rw [dropLast_splitAt_relativeText proper, List.any_eq_false]
  simp only [List.mem_range, Bool.not_eq_true, excludes_eq_false_iff]
  constructor
  · rintro spared above below rfl nonempty others
    obtain ⟨count, length⟩ := Nat.exists_eq_add_one.mpr (List.length_pos_iff.mpr nonempty)
    rw [List.dropLast_append_of_ne_nil others] at spared
    have way := spared count (by rw [List.length_append]; omega)
    rwa [← length, List.take_left] at way
  · intro spared count bound
    rw [List.length_dropLast] at bound
    have inside : count + 1 ≤ parts.length - 1 := bound
    rw [List.dropLast_eq_take, List.take_take, Nat.min_eq_left inside]
    refine spared _ (parts.drop (count + 1)) (List.take_append_drop _ parts).symm ?_ ?_
    · exact List.ne_nil_of_length_pos (by rw [List.length_take]; omega)
    · exact List.ne_nil_of_length_pos (by rw [List.length_drop]; omega)

private theorem supports_iff (proper : ∀ part ∈ parts, Path.IsProper part) :
    filter.supports (Path.relativeText parts) = true ↔
      ∃ extension ∈ filter.extensions, extension.toList <:+ (parts.getLast?.getD "").toList := by
  unfold supports Path.name Text.endsWith
  rw [Path.ofString_relativeText proper, List.any_eq_true]
  simp only [List.isSuffixOf_iff_suffix]

/-- A filter that neither ignores a path nor leaves its name unsupported lets it pass. -/
theorem passes_iff (proper : ∀ part ∈ parts, Path.IsProper part) :
    filter.Passes parts ↔ filter.ignores (Path.relativeText parts) = false ∧
      filter.supports (Path.relativeText parts) = true := by
  rw [ignores_eq_false_iff proper, supports_iff proper]
  exact ⟨fun passes => ⟨passes.spared, passes.named⟩, fun ⟨spared, named⟩ => ⟨spared, named⟩⟩

end SourceFilter

end ModuleAtlas
