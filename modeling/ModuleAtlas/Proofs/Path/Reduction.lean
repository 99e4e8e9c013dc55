import Mathlib.Logic.Relation
import ModuleAtlas.Proofs.Path.Normal

/-! # Reduction of the pieces of a path

Below a root, three rules simplify the pieces between the slashes of a path: an empty piece or
a dot is dropped, a name is cancelled by the two dots behind it, and two dots at the top are
ignored (`ModuleAtlas.Path.Reduces`). The rules may be applied anywhere and in any order. They
end in one and the same list of names, which is what the normal form of the path is made of
(`ModuleAtlas.Path.isReduced_iff`): no rule changes what the pieces come to when they are passed
one by one, and passing them is one way of applying the rules.
-/

namespace ModuleAtlas.Path

/-- A piece that names something and leads down. -/
def IsPlain (piece : String) : Prop := piece ≠ "" ∧ piece ≠ "." ∧ piece ≠ ".."

/-- A plain piece is a part that does not lead upwards. -/
theorem isPlain_iff {piece : String} : IsPlain piece ↔ isPart piece = true ∧ piece ≠ ".." := by
  simp only [IsPlain, isPart, Bool.and_eq_true, decide_eq_true_eq, and_assoc]

/-- One rule is applied to the pieces of a path below a root. -/
inductive Reduces : List String → List String → Prop where
  | drop (before after : List String) {piece : String} (blank : piece = "" ∨ piece = ".") :
      Reduces (before ++ piece :: after) (before ++ after)
  | cancel (before after : List String) {name : String} (plain : IsPlain name) :
      Reduces (before ++ name :: ".." :: after) (before ++ after)
  | top (after : List String) : Reduces (".." :: after) after

/-- The rules lead from some pieces to names only. -/
structure IsReduced (pieces parts : List String) : Prop where
  steps : Relation.ReflTransGen Reduces pieces parts
  plain : ∀ part ∈ parts, IsPlain part

section Advance

variable {name : String}

private theorem advance_of_ne (rooted : Bool) (passed : List String) (named : name ≠ "..") :
    advance rooted passed name = name :: passed :=
  if_pos named

private theorem advance_up (rooted : Bool) (passed : List String) (named : name ≠ "..") :
    advance rooted (name :: passed) ".." = passed :=
  if_neg named

private theorem advance_top : advance true [] ".." = [] := rfl

end Advance

/-- Passing the pieces one by one, below a root. The parts passed are kept in reverse. -/
def passAll (passed pieces : List String) : List String :=
  (pieces.filter isPart).foldl (advance true) passed

section Pass

variable {passed pieces parts : List String} {piece : String}

private theorem passAll_append (passed first second : List String) :
    passAll passed (first ++ second) = passAll (passAll passed first) second := by
  rw [passAll, List.filter_append, List.foldl_append]
  rfl

private theorem passAll_cons_of_blank (blank : piece = "" ∨ piece = ".")
    (passed pieces : List String) :
    passAll passed (piece :: pieces) = passAll passed pieces := by
  have unnamed : ¬ isPart piece = true := by
    rcases blank with rfl | rfl <;> decide
  rw [passAll, List.filter_cons_of_neg unnamed]
  rfl

private theorem passAll_cons_of_isPart (named : isPart piece = true) (passed pieces : List String) :
    passAll passed (piece :: pieces) = passAll (advance true passed piece) pieces := by
  rw [passAll, List.filter_cons_of_pos named, List.foldl_cons]
  rfl

/-- No rule changes what the pieces come to. -/
theorem Reduces.passAll_eq {result : List String} (step : Reduces pieces result) :
    passAll [] pieces = passAll [] result := by
  cases step with
  | drop before after blank =>
      rw [passAll_append, passAll_append, passAll_cons_of_blank blank]
  | cancel before after plain =>
      obtain ⟨named, down⟩ := isPlain_iff.mp plain
      rw [passAll_append, passAll_append, passAll_cons_of_isPart named, advance_of_ne _ _ down,
        passAll_cons_of_isPart rfl, advance_up _ _ down]
  | top after => rw [passAll_cons_of_isPart rfl, advance_top]

private theorem passAll_eq_of_steps (steps : Relation.ReflTransGen Reduces pieces parts) :
    passAll [] pieces = passAll [] parts := by
  induction steps with
  | refl => rfl
  | tail _ step same => exact same.trans step.passAll_eq

/-- Names come to themselves. -/
theorem passAll_of_isPlain (plain : ∀ part ∈ parts, IsPlain part) :
    passAll [] parts = parts.reverse := by
  have kept : parts.filter isPart = parts :=
    List.filter_eq_self.mpr fun part member => (isPlain_iff.mp (plain part member)).1
  have level : ".." ∉ parts := fun member => (plain ".." member).2.2 rfl
  rw [passAll, kept, foldl_advance_of_notMem true level, List.append_nil]

/-- Passing the pieces applies the rules from the left. -/
theorem isReduced_passAll (plain : ∀ part ∈ passed, IsPlain part) (pieces : List String) :
    IsReduced (passed.reverse ++ pieces) (passAll passed pieces).reverse := by
  induction pieces generalizing passed with
  | nil =>
      rw [List.append_nil]
      exact ⟨.refl, fun part member => plain part (List.mem_reverse.mp member)⟩
  | cons piece pieces ih =>
      by_cases blank : piece = "" ∨ piece = "."
      · rw [passAll_cons_of_blank blank]
        have rest := ih plain
        exact ⟨rest.steps.head (.drop passed.reverse pieces blank), rest.plain⟩
      · have named : isPart piece = true := by simpa [isPart] using blank
        rw [passAll_cons_of_isPart named]
        by_cases up : piece = ".."
        · subst up
          cases passed with
          | nil =>
              rw [advance_top]
              have rest := ih plain
              exact ⟨rest.steps.head (.top pieces), rest.plain⟩
          | cons last before =>
              obtain ⟨down, lower⟩ := List.forall_mem_cons.mp plain
              rw [advance_up _ _ down.2.2, List.reverse_cons, List.append_assoc]
              have rest := ih lower
              exact ⟨rest.steps.head (.cancel before.reverse pieces down), rest.plain⟩
        · rw [advance_of_ne _ _ up]
          have rest := ih (List.forall_mem_cons.mpr ⟨isPlain_iff.mpr ⟨named, up⟩, plain⟩)
          rwa [List.reverse_cons, List.append_assoc] at rest

/-- However the rules are applied, they end in what the pieces come to when they are passed one
by one. -/
theorem isReduced_iff : IsReduced pieces parts ↔ parts = (passAll [] pieces).reverse := by
  constructor
  · intro reduced
    rw [passAll_eq_of_steps reduced.steps, passAll_of_isPlain reduced.plain,
      List.reverse_reverse]
  · rintro rfl
    exact isReduced_passAll (List.forall_mem_nil _) pieces

end Pass

end ModuleAtlas.Path
