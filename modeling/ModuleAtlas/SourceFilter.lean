import ModuleAtlas.Path

/-! # Which files are source files

A file counts if its name ends with one of the extensions and no directory above
it holds an excluded fragment anywhere in its path below the root.
-/

namespace ModuleAtlas

/-- The extensions and the excluded fragments of a scan. -/
structure SourceFilter where
  extensions : List String := [".js", ".jsx", ".ts", ".tsx"]
  excluded : List String := ["node_modules", "tests", "test"]
  deriving DecidableEq, Repr

namespace SourceFilter

/-- Whether a path has the name of a source file. -/
def supports (filter : SourceFilter) (path : String) : Bool :=
  filter.extensions.any (Text.endsWith (Path.ofString path).name)

/-- Whether a directory is skipped, given its path below the root. -/
def excludes (filter : SourceFilter) (directory : String) : Bool :=
  filter.excluded.any (Text.contains directory)

/-- Whether one of the directories above a file is skipped. -/
def ignores (filter : SourceFilter) (path : String) : Bool :=
  let above := (Text.splitAt '/' path).dropLast
  (List.range above.length).any fun count =>
    filter.excludes (Text.join "/" (above.take (count + 1)))

end SourceFilter

end ModuleAtlas
