import ModuleAtlas.Path

/-! # File trees

A file tree holds what stands at each location below the root directory. A
location is the list of names on the way down, and no location is listed twice.
The order of the entries is the order in which directories list them.
-/

namespace ModuleAtlas

/-- The names on the way from the root directory to a place in a file tree. -/
abbrev Location := List String

/-- What stands at one location. A directory that is not listable hides its
names; one that is not searchable refuses every question about what is in it. -/
inductive Entry where
  | file (content : List UInt8) (readable : Bool)
  | directory (listable searchable : Bool)
  | link (target : String)
  deriving DecidableEq, Repr

namespace Entry

/-- Whether an entry is a regular file. -/
def isFile : Entry → Bool
  | .file _ _ => true
  | _ => false

/-- Whether an entry is a directory. -/
def isDirectory : Entry → Bool
  | .directory _ _ => true
  | _ => false

/-- Whether a directory lets its entries be looked at. -/
def isSearchable : Entry → Bool
  | .directory _ searchable => searchable
  | _ => false

end Entry

/-- The longest name of an entry, in bytes. -/
def nameLimit : Nat := 255

/-- The number of bytes from which on a path is too long. -/
def pathLimit : Nat := 4096

/-- The number of links that one question may follow. -/
def linkLimit : Nat := 40

/-- Whether a text can name an entry of a directory. -/
def isEntryName (name : String) : Bool :=
  name ≠ "" && name ≠ "." && name ≠ ".." && !name.toList.contains '/' &&
    !name.toList.contains '\x00' && decide (name.utf8ByteSize ≤ nameLimit)

/-- The name of an entry is a proper part, and not two dots. -/
theorem isProper_of_isEntryName {name : String} (valid : isEntryName name = true) :
    Path.IsProper name ∧ name ≠ ".." := by
  simp only [isEntryName, ne_eq, decide_not, Bool.and_eq_true, Bool.not_eq_true',
    decide_eq_false_iff_not, List.contains_eq_mem] at valid
  obtain ⟨⟨⟨⟨⟨nonempty, undotted⟩, notUp⟩, clean⟩, -⟩, -⟩ := valid
  refine ⟨⟨?_, clean⟩, notUp⟩
  simp [Path.isPart, nonempty, undotted]

/-- A tree of files, directories and links, the directory that relative paths
start from, and whether the scanning user may change anything. -/
structure FileTree where
  entries : List (Location × Entry)
  workingDir : Location
  writable : Bool
  distinct : (entries.map Prod.fst).Nodup
  named : ∀ entry ∈ entries, ∀ name ∈ entry.1, isEntryName name
  situated : ∀ name ∈ workingDir, isEntryName name := by decide +kernel

namespace FileTree

/-- The tree with nothing but the root directory. -/
def empty : FileTree := ⟨[], [], true, by simp, by simp, by simp⟩

/-- The path of the working directory. -/
def workingPath (tree : FileTree) : Path :=
  ⟨.slash, tree.workingDir, fun name member =>
    (isProper_of_isEntryName (tree.situated name member)).1⟩

/-- What stands at a location. The root directory is always there. -/
def entry? (tree : FileTree) (location : Location) : Option Entry :=
  if location = [] then some (.directory true true) else tree.entries.lookup location

/-- The name of a location directly below a directory. -/
def childName? (directory location : Location) : Option String :=
  if location.dropLast = directory then location.getLast? else none

/-- The names and entries directly below a directory. -/
def children (tree : FileTree) (directory : Location) : List (String × Entry) :=
  tree.entries.filterMap fun entry => (childName? directory entry.1).map fun name => (name, entry.2)

/-- The number of names on the longest way down. -/
def height (tree : FileTree) : Nat := (tree.entries.map fun entry => entry.1.length).foldr max 0

/-- The tree with nothing at a location or below it. -/
def prune (tree : FileTree) (location : Location) : FileTree :=
  { tree with
    entries := tree.entries.filter fun entry => !location.isPrefixOf entry.1
    distinct := (List.filter_sublist.map Prod.fst).nodup tree.distinct
    named := fun entry member => tree.named entry (List.mem_filter.mp member).1 }

/-- The tree with an entry at a location, in place of what stood there. A
location that cannot be named leaves the tree as it is. -/
def put (tree : FileTree) (location : Location) (entry : Entry) : FileTree :=
  if valid : location.all isEntryName then
    { tree with
      entries := (location, entry) :: tree.entries.filter fun old => old.1 ≠ location
      distinct := by
        simp only [List.map_cons, List.nodup_cons]
        refine ⟨?_, (List.filter_sublist.map Prod.fst).nodup tree.distinct⟩
        simp
      named := by
        intro old member
        rcases List.mem_cons.mp member with rfl | kept
        · exact fun name inside => List.all_eq_true.mp valid name inside
        · exact tree.named old (List.mem_filter.mp kept).1 }
  else tree

/-- The proper starts of a location, shortest first. -/
def ancestors (location : Location) : List Location :=
  (List.range location.length).map location.take

/-- The tree with a directory at every proper start of a location that has
nothing yet. -/
def putAncestors (tree : FileTree) (location : Location) : FileTree :=
  (ancestors location).foldl
    (fun tree start =>
      if (tree.entry? start).isSome then tree else tree.put start (.directory true true))
    tree

end FileTree

end ModuleAtlas
