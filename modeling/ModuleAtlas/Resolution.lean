import ModuleAtlas.FileTree.Probe
import ModuleAtlas.Path

/-! # Resolution of references

A reference that starts with a dot is read from the directory of the importing
file. So is one with a slash in it, unless it names a scope, a package directory
or an absolute path. Every other reference stays as it is.
-/

namespace ModuleAtlas

/-- Where a reference leads. -/
structure Resolution where
  path : String
  isPath : Bool
  isRelative : Bool
  deriving DecidableEq, Repr

namespace Resolution

/-- The extensions that a reference may leave out, in the order they are tried. -/
def impliedExtensions : List String := [".js", ".ts", ".jsx", ".tsx"]

/-- The files that a path may stand for, in the order they are tried: itself,
with an extension, or the index file of a directory. -/
def candidates (base : String) : List String :=
  base :: impliedExtensions.map (base ++ ·) ++
    impliedExtensions.map fun extension => Path.joinText base ("index" ++ extension)

/-- A reference read from the directory of the importing file. -/
def basePath (importing reference : String) : Path :=
  ((Path.directoryOf importing).extend (Path.partsOf reference) fun _ =>
    Path.isProper_of_mem_partsOf).normalize

/-- The first candidate that is a regular file, or else the path itself. -/
def probe (tree : FileTree) (base : String) : String :=
  ((candidates base).find? tree.isRegular).getD base

/-- Whether a reference is read from the importing file. -/
def isLocal (reference : String) : Bool :=
  Text.beginsWith reference "." ||
    (!Text.beginsWith reference "@" && !Text.beginsWith reference "/" &&
      reference.toList.contains '/' &&
      (Text.splitAt '/' reference).head? ≠ some "node_modules")

/-- Where a reference leads from an importing file. A reference that comes back
unchanged is a path only if it is absolute. -/
def resolve (tree : FileTree) (importing reference : String) : Resolution :=
  let path :=
    if isLocal reference then probe tree (basePath importing reference).toString else reference
  { path
    isPath := path ≠ reference || Text.beginsWith path "/"
    isRelative := Text.beginsWith reference "." }

end Resolution

end ModuleAtlas
