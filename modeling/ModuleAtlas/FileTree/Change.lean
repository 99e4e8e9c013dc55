import ModuleAtlas.FileTree.Probe
import ModuleAtlas.Path

/-! # Changes to files

Creating directories and writing files. A single change that is refused leaves
the tree as it was.
-/

namespace ModuleAtlas.FileTree

/-- The tree with a new directory. -/
def makeDirectory (tree : FileTree) (path : String) : Except Fault FileTree := do
  let location ← tree.locate false path
  if (tree.entry? location).isSome then .error .alreadyExists
  else if !tree.writable then .error .denied
  else .ok (tree.put location (.directory true true))

/-- The tree with a directory at a path that may already have one. -/
def ensureDirectory (tree : FileTree) (path : String) : Except Failure FileTree :=
  match tree.makeDirectory path with
  | .ok changed => .ok changed
  | .error .notFound => .error (.file .notFound path)
  | .error fault => do
      if ← tree.isDirectory? path then .ok tree else .error (.file fault path)

/-- The outcome of a change that may have happened in part: the tree afterwards
and the failure that stopped it. -/
abbrev Changed := FileTree × Option Failure

/-- The outcome of a change that happens as a whole or not at all. -/
def orUnchanged (tree : FileTree) : Except Failure FileTree → Changed
  | .ok changed => (changed, none)
  | .error failure => (tree, some failure)

/-- The tree with a directory at a path, given by its parts in reverse, and at
every path above it that has nothing yet. -/
def ensureDirectories (tree : FileTree) (root : Root) : List String → Changed
  | [] => tree.orUnchanged (tree.ensureDirectory (Path.spell root []))
  | part :: above =>
      let path := Path.spell root (part :: above).reverse
      match tree.makeDirectory path with
      | .error .notFound =>
          match tree.ensureDirectories root above with
          | (prepared, none) => prepared.orUnchanged (prepared.ensureDirectory path)
          | stopped => stopped
      | _ => tree.orUnchanged (tree.ensureDirectory path)

/-- The tree with the given bytes in the file that a path leads to. -/
def writeBytes (tree : FileTree) (path : String) (content : List UInt8) :
    Except Failure FileTree :=
  match tree.locate true path with
  | .error fault => .error (.file fault path)
  | .ok location =>
      if ((tree.entry? location).map Entry.isDirectory).getD false then
        .error (.file .isDirectory path)
      else if !tree.writable then .error (.file .denied path)
      else .ok (tree.put location (.file content true))

/-- The location that a path names as written, from the working directory. -/
def namedLocation (tree : FileTree) (path : String) : Location :=
  (tree.workingPath.join path).normalize.parts

/-- The tree with an entry put at a path from outside, with the directories it
needs. A file goes where links at the path lead. -/
def place (tree : FileTree) (path : String) (entry : Entry) : FileTree :=
  match tree.locate entry.isFile path with
  | .ok location => tree.put location entry
  | .error _ =>
      let location := tree.namedLocation path
      (tree.putAncestors location).put location entry

/-- The tree with what stands at a path, and all below it, taken away. -/
def remove (tree : FileTree) (path : String) : FileTree := tree.prune (tree.namedLocation path)

end ModuleAtlas.FileTree
