import ModuleAtlas.FileTree.Probe
import ModuleAtlas.Notice
import ModuleAtlas.Path
import ModuleAtlas.Reference.Extract

/-! # References of a file -/

namespace ModuleAtlas.Reference

/-- The references of the file at a path. -/
def ofPath (tree : FileTree) (path : String) : Except Failure (List String) :=
  (tree.readText path).map extract

/-- The references of a file, and what is reported of it as it was written. -/
def ofFile (tree : FileTree) (written : String) : List Notice × Except Failure (List String) :=
  match ofPath tree (Path.ofString written).toString with
  | .ok references => ([.importsFound references.length written], .ok references)
  | .error failure => ([], .error failure)

end ModuleAtlas.Reference
