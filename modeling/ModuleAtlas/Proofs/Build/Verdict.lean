import ModuleAtlas.Build.Verdict
import ModuleAtlas.Proofs.Path.Spelling

/-! # The dependency that a reference stands for

A reference stands for a dependency of its own accord: what was scanned before
plays no part in it. `ModuleAtlas.Project.dependency?` says which one, from the
resolution of the reference and one probe of the file tree, and the verdict on
the reference says the same (`ModuleAtlas.Project.dependency_verdict`). The target of
an internal dependency is a regular file under its own name
(`ModuleAtlas.Project.isFile?_of_dependency?`), and every regular file below the root
that a local reference leads to is such a target
(`ModuleAtlas.Project.dependency?_of_isLocal`).
-/

namespace ModuleAtlas

/-- The dependency that a verdict calls for, and whether it is external. -/
def Verdict.dependency : Verdict → Option (String × Bool)
  | .internal target => some (target, false)
  | .external id => some (id, true)
  | .dropped => none

private theorem FileTree.isRegular_of_isFile? {tree : FileTree} {path : String}
    (regular : tree.isFile? path = .ok true) : tree.isRegular path = true := by
  unfold isFile? probe at regular
  unfold isRegular
  cases stat : tree.stat path with
  | ok entry =>
      rw [stat] at regular
      exact Except.ok.inj regular
  | error fault =>
      rw [stat] at regular
      dsimp only at regular
      split at regular <;> cases regular

namespace Project

/-- The dependency of a file that a reference stands for, and whether it is
external. A reference that is no path is external to a lenient policy and nothing
to a strict one. Of one that is a path, a regular file below the root is internal
by its path there, a regular file elsewhere and a path that cannot be probed are
external by the resolved path, and anything else is external to a lenient policy
if it does not start with a dot. -/
def dependency? (project : Project) (file reference : String) : Option (String × Bool) :=
  let resolution := Resolution.resolve project.tree (project.fullPath file) reference
  let target := Path.ofString resolution.path
  if !resolution.isPath then
    match project.policy with
    | .lenient => some (reference, true)
    | .strict => none
  else
    match project.tree.isFile? target.toString, target.relativeTo? project.root with
    | .error _, _ => some (resolution.path, true)
    | .ok true, none => some (resolution.path, true)
    | .ok true, some parts => some (Path.relativeText parts, false)
    | .ok false, _ =>
        if project.policy = .lenient ∧ Text.beginsWith reference "." = false then
          some (reference, true)
        else none

/-- The verdict on a reference calls for the dependency that it stands for. -/
theorem dependency_verdict (project : Project) (file reference : String) :
    (project.verdict file reference).2.dependency = project.dependency? file reference := by
  simp only [verdict, dependency?]
  generalize resolved : Resolution.resolve project.tree (project.fullPath file) reference =
    resolution
  have relative : resolution.isRelative = Text.beginsWith reference "." := by
    rw [← resolved]
    rfl
  by_cases isPath : resolution.isPath = true
  · simp only [isPath, ↓reduceIte, Bool.not_true, Bool.false_eq_true, pathVerdict, relative]
    cases project.tree.isFile? (Path.ofString resolution.path).toString with
    | error failure => rfl
    | ok regular =>
        cases regular with
        | true =>
            cases (Path.ofString resolution.path).relativeTo? project.root <;> rfl
        | false =>
            by_cases lenient : project.policy = .lenient <;>
              cases dotted : Text.beginsWith reference "." <;>
                simp [lenient, Verdict.dependency]
  · simp only [isPath, Bool.not_false, ↓reduceIte, Bool.false_eq_true]
    cases project.policy <;> rfl

/-- The verdict is internal exactly for an internal dependency on that target. -/
theorem verdict_eq_internal_iff {project : Project} {file reference target : String} :
    (project.verdict file reference).2 = .internal target ↔
      project.dependency? file reference = some (target, false) := by
  rw [← dependency_verdict]
  cases (project.verdict file reference).2 <;> simp [Verdict.dependency]

/-- The verdict is external exactly for an external dependency on that name. -/
theorem verdict_eq_external_iff {project : Project} {file reference id : String} :
    (project.verdict file reference).2 = .external id ↔
      project.dependency? file reference = some (id, true) := by
  rw [← dependency_verdict]
  cases (project.verdict file reference).2 <;> simp [Verdict.dependency]

/-- What an internal dependency rests on: the reference resolves to the path of a
regular file below the root, and the target is the name of that file there. -/
structure Lands (project : Project) (file reference target : String) (parts : List String) :
    Prop where
  isPath : (Resolution.resolve project.tree (project.fullPath file) reference).isPath = true
  regular : project.tree.isFile? (Path.ofString
    (Resolution.resolve project.tree (project.fullPath file) reference).path).toString = .ok true
  below : (Path.ofString
    (Resolution.resolve project.tree (project.fullPath file) reference).path).relativeTo?
      project.root = some parts
  named : target = Path.relativeText parts

/-- An internal dependency lands on a regular file below the root. -/
theorem exists_lands_of_dependency? {project : Project} {file reference target : String}
    (entry : project.dependency? file reference = some (target, false)) :
    ∃ parts, project.Lands file reference target parts := by
  simp only [dependency?] at entry
  split at entry
  · cases policy : project.policy <;> simp [policy] at entry
  · next isPath =>
      split at entry
      · simp only [Option.some.injEq, Prod.mk.injEq, Bool.true_eq_false, and_false] at entry
      · simp only [Option.some.injEq, Prod.mk.injEq, Bool.true_eq_false, and_false] at entry
      · next parts regular below =>
          simp only [Option.some.injEq, Prod.mk.injEq, and_true] at entry
          exact ⟨parts, by simpa using isPath, regular, below, entry.symm⟩
      · split at entry <;> simp at entry

/-- The target of an internal dependency is a regular file, probed under the
name that it is recorded by. -/
theorem isFile?_of_dependency? {project : Project} {file reference target : String}
    (entry : project.dependency? file reference = some (target, false)) :
    project.tree.isFile? (project.fullPath target) = .ok true := by
  obtain ⟨parts, lands⟩ := exists_lands_of_dependency? entry
  have spelled := Path.join_relativeText_of_relativeTo? lands.below
  rw [lands.named, fullPath, spelled]
  exact lands.regular

/-- The target of an internal verdict is a file. -/
theorem isFile?_of_verdict_internal {project : Project} {file reference target : String}
    (judged : (project.verdict file reference).2 = .internal target) :
    project.tree.isFile? (project.fullPath target) = .ok true :=
  isFile?_of_dependency? (verdict_eq_internal_iff.mp judged)

/-- A reference that is read from the importing file and leads to a regular file below
the root stands for an internal dependency on it. -/
theorem dependency?_of_isLocal {project : Project} {file reference : String} {parts : List String}
    (absolute : project.root.isAbsolute = true) (proper : ∀ part ∈ parts, Path.IsProper part)
    (isLocal : Resolution.isLocal reference = true)
    (base : Resolution.basePath (project.fullPath file) reference =
      project.root.extend parts proper)
    (regular : project.tree.isFile? (project.root.extend parts proper).toString = .ok true) :
    project.dependency? file reference = some (Path.relativeText parts, false) := by
  have rooted : (project.root.extend parts proper).isAbsolute = true := absolute
  have probed : Resolution.probe project.tree (project.root.extend parts proper).toString =
      (project.root.extend parts proper).toString := by
    rw [Resolution.probe, Resolution.candidates, List.cons_append,
      List.find?_cons_of_pos (FileTree.isRegular_of_isFile? regular)]
    rfl
  have path : (Resolution.resolve project.tree (project.fullPath file) reference).path =
      (project.root.extend parts proper).toString := by
    unfold Resolution.resolve
    dsimp only
    rw [if_pos isLocal, base, probed]
  have isPath : (Resolution.resolve project.tree (project.fullPath file) reference).isPath =
      true := by
    have begins := Path.beginsWith_toString rooted
    rw [← path] at begins
    unfold Resolution.resolve at begins ⊢
    dsimp only at begins ⊢
    rw [begins, Bool.or_true]
  unfold dependency?
  dsimp only
  rw [isPath, path, Path.ofString_toString, regular, Path.relativeTo?_extend]
  rfl

end Project

end ModuleAtlas
