import ModuleAtlas.Notice
import ModuleAtlas.Resolution

/-! # What becomes of a reference

Every reference of a scanned file becomes an internal dependency, an external
one, or nothing. The verdict depends on the file tree, the root, the policy and
the importing file, and on nothing that was scanned before.
-/

namespace ModuleAtlas

/-- How references that lead to no project file are recorded: only those that
lead outside the root, or every one that does not start with a dot too. -/
inductive ExternalPolicy where
  | strict
  | lenient
  deriving DecidableEq, Repr

/-- The policy with the given name. -/
def ExternalPolicy.ofName? : String → Option ExternalPolicy
  | "strict" => some .strict
  | "lenient" => some .lenient
  | _ => none

/-- What becomes of a reference. -/
inductive Verdict where
  | internal (file : String)
  | external (id : String)
  | dropped
  deriving DecidableEq, Repr

/-- The tree that is scanned, its root, and how references are recorded. -/
structure Project where
  tree : FileTree
  root : Path
  policy : ExternalPolicy

namespace Project

/-- The written path of a file of the project. -/
def fullPath (project : Project) (file : String) : String := (project.root.join file).toString

/-- The verdict on a reference that resolves to a path, with what is reported. -/
def pathVerdict (project : Project) (reference : String) (resolution : Resolution) :
    List Notice × Verdict :=
  let target := Path.ofString resolution.path
  match project.tree.isFile? target.toString with
  | .error _ => ([.externalDependency resolution.path], .external resolution.path)
  | .ok true =>
      match target.relativeTo? project.root with
      | some parts => ([], .internal (Path.relativeText parts))
      | none => ([.externalDependency resolution.path], .external resolution.path)
  | .ok false =>
      if project.policy = .lenient && !resolution.isRelative then ([], .external reference)
      else ([.unresolved reference], .dropped)

/-- The verdict on a reference of a file, with what is reported. -/
def verdict (project : Project) (file reference : String) : List Notice × Verdict :=
  let resolution := Resolution.resolve project.tree (project.fullPath file) reference
  let (notices, verdict) :=
    if resolution.isPath then project.pathVerdict reference resolution
    else if project.policy = .lenient then ([], .external reference)
    else ([.moduleDropped reference], .dropped)
  (.resolved reference resolution.path :: notices, verdict)

end Project

end ModuleAtlas
