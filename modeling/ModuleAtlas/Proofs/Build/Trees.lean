import ModuleAtlas.Build
import ModuleAtlas.Proofs.FileTree.Outline

/-! # One project in two trees

What becomes of a reference is decided by where files stand, and not by what is in them. So
two trees that take the same paths for files give the same verdicts
(`ModuleAtlas.FileTree.SameKinds.verdict_eq`).
-/

namespace ModuleAtlas

namespace Project

/-- The same project in another tree. -/
def onTree (project : Project) (tree : FileTree) : Project := { project with tree }

variable (project : Project) (tree : FileTree)

/-- The project moved onto a tree has that tree. -/
@[simp]
theorem tree_onTree : (project.onTree tree).tree = tree := rfl

/-- A project keeps its root on another tree. -/
@[simp]
theorem root_onTree : (project.onTree tree).root = project.root := rfl

/-- A project spells its files the same way on another tree. -/
@[simp]
theorem fullPath_onTree (file : String) :
    (project.onTree tree).fullPath file = project.fullPath file := rfl

end Project

namespace FileTree

/-- Two trees take the same paths for files, and fail alike where they cannot tell. -/
structure SameKinds (other tree : FileTree) : Prop where
  isRegular : other.isRegular = tree.isRegular
  isFile? : other.isFile? = tree.isFile?

/-- A tree listed in another order answers every question about kinds alike. -/
theorem Relists.sameKinds {other tree : FileTree} (same : other.Relists tree) :
    other.SameKinds tree :=
  ⟨same.isRegular_eq, same.isFile?_eq⟩

/-- Trees of one outline answer every question about kinds alike. -/
theorem SameOutline.sameKinds {other tree : FileTree} (same : other.SameOutline tree) :
    other.SameKinds tree :=
  ⟨same.isRegular_eq, same.isFile?_eq⟩

namespace SameKinds

open Build

variable {project : Project} {other : FileTree}

private theorem resolve_eq {tree : FileTree} (same : other.SameKinds tree) :
    Resolution.resolve other = Resolution.resolve tree := by
  funext importing reference
  unfold Resolution.resolve Resolution.probe
  rw [same.isRegular]

private theorem pathVerdict_eq (same : other.SameKinds project.tree) :
    (project.onTree other).pathVerdict = project.pathVerdict := by
  funext reference resolution
  unfold Project.pathVerdict
  simp only [Project.tree_onTree, Project.root_onTree, same.isFile?]
  rfl

/-- The verdict on a reference asks the tree for kinds only. -/
theorem verdict_eq (same : other.SameKinds project.tree) :
    (project.onTree other).verdict = project.verdict := by
  funext file reference
  unfold Project.verdict
  simp only [Project.tree_onTree, Project.fullPath_onTree, same.pathVerdict_eq, same.resolve_eq]
  rfl

/-- Taking up a reference asks the tree for kinds only, never for contents or order. -/
theorem addReference_eq (same : other.SameKinds project.tree) (limit : DepthLimit) :
    addReference ⟨project.onTree other, limit⟩ = addReference ⟨project, limit⟩ := by
  funext file reference progress
  unfold addReference
  dsimp only
  rw [same.verdict_eq]

end SameKinds

end FileTree

end ModuleAtlas
