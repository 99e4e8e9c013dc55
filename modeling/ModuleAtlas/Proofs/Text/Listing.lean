import Mathlib.Data.List.Induction
import Mathlib.Data.List.Perm.Subperm
import Mathlib.Data.String.Basic
import ModuleAtlas.Text.Search

/-! # Lists of texts that stand for sets

A list without repetition is the set of its members. What is asked of such a list
does not depend on its order: it is sorted (`ModuleAtlas.Text.sortTexts_eq_of_perm`)
or counted (`ModuleAtlas.Text.countP_mem`).
-/

namespace ModuleAtlas.Text

section Distinct

variable {α : Type*} [BEq α] [LawfulBEq α]

/-- A last item is kept if it is new. -/
theorem eraseDups_concat (items : List α) (item : α) :
    (items ++ [item]).eraseDups =
      if item ∈ items then items.eraseDups else items.eraseDups ++ [item] := by
  rw [List.eraseDups_append]
  split
  · next listed => simp [List.removeAll, listed]
  · next unlisted => simp [List.removeAll, unlisted, List.eraseDups_cons]

/-- Without duplicates no item stands twice. -/
theorem nodup_eraseDups (items : List α) : items.eraseDups.Nodup := by
  induction items using List.reverseRecOn with
  | nil => exact List.nodup_nil
  | append_singleton items item ih =>
      rw [eraseDups_concat]
      split
      · exact ih
      · next unlisted =>
          have apart : ∀ other ∈ items.eraseDups, other ≠ item := by
            intro other member same
            exact unlisted (same ▸ List.mem_eraseDups.mp member)
          exact List.nodup_append.mpr ⟨ih, List.pairwise_singleton _ item, by simpa using apart⟩

/-- Items that are named apart are distinct where their names are. -/
theorem eraseDups_map {β : Type*} [BEq β] [LawfulBEq β] {name : α → β}
    (apart : Function.Injective name) (items : List α) :
    (items.map name).eraseDups = items.eraseDups.map name := by
  induction items using List.reverseRecOn with
  | nil => rfl
  | append_singleton items item ih =>
      rw [List.map_append, List.map_singleton, eraseDups_concat, eraseDups_concat, ih]
      simp only [List.mem_map_of_injective apart]
      split
      · rfl
      · rw [List.map_append, List.map_singleton]

end Distinct

/-- Distinct texts have no duplicates to erase. -/
theorem eraseDups_of_nodup {texts : List String} (distinct : texts.Nodup) :
    texts.eraseDups = texts := by
  induction texts with
  | nil => rfl
  | cons text texts ih =>
      obtain ⟨unlisted, distinct⟩ := List.nodup_cons.mp distinct
      have kept : texts.filter (fun other => !other == text) = texts := by
        apply List.filter_eq_self.mpr
        intro other member
        simpa only [Bool.not_eq_eq_eq_not, Bool.not_true, beq_eq_false_iff_ne, ne_eq, imp_false]
          using fun same : other = text => unlisted (same ▸ member)
      rw [List.eraseDups_cons, kept, ih distinct]

/-- Sorting reorders the texts and changes none. -/
theorem sortTexts_perm (texts : List String) : (sortTexts texts).Perm texts :=
  List.mergeSort_perm texts _

private theorem pairwise_sortTexts (texts : List String) : (sortTexts texts).Pairwise (· ≤ ·) := by
  have sorted := @List.pairwise_mergeSort String (fun first second => decide (first ≤ second))
    (fun first second third early late => by
      simp only [decide_eq_true_eq] at early late ⊢
      exact early.trans late)
    (fun first second => by
      simp only [Bool.or_eq_true, decide_eq_true_eq]
      exact le_total first second) texts
  exact sorted.imp fun le => of_decide_eq_true le

/-- Texts are sorted to the one order of them that ascends. -/
theorem sortTexts_eq_of_pairwise {texts ascending : List String} (same : texts.Perm ascending)
    (ordered : ascending.Pairwise (· ≤ ·)) : sortTexts texts = ascending :=
  List.Perm.eq_of_pairwise (fun _ _ _ _ early late => le_antisymm early late)
    (pairwise_sortTexts texts) ordered ((sortTexts_perm texts).trans same)

/-- Two orders of the same texts are sorted alike. -/
theorem sortTexts_eq_of_perm {first second : List String} (same : first.Perm second) :
    sortTexts first = sortTexts second :=
  sortTexts_eq_of_pairwise (same.trans (sortTexts_perm second).symm) (pairwise_sortTexts second)

/-- Of the members of a list, as many are in a second list as the second list has, if
it is a part of the first. -/
theorem countP_mem {all part : List String} (distinct : all.Nodup) (partDistinct : part.Nodup)
    (inside : part ⊆ all) : all.countP (fun text => decide (text ∈ part)) = part.length := by
  rw [List.countP_eq_length_filter]
  apply List.Perm.length_eq
  rw [List.perm_ext_iff_of_nodup (distinct.filter _) partDistinct]
  intro text
  simp only [List.mem_filter, decide_eq_true_eq]
  exact ⟨fun both => both.2, fun member => ⟨inside member, member⟩⟩

end ModuleAtlas.Text
