import ModuleAtlas.Text.Search

/-! # Paths as text

A path is a root and the names below it. Reading a path drops empty and `.`
parts and keeps `..`; only `normalize` cancels those, without looking at any
file.
-/

namespace ModuleAtlas

/-- Where a path starts. Exactly two leading slashes are a root of their own. -/
inductive Root where
  | relative
  | slash
  | doubleSlash
  deriving DecidableEq, Repr

namespace Path

/-- Whether a piece between slashes names something of its own. -/
def isPart (piece : String) : Bool := piece ≠ "" && piece ≠ "."

/-- A part as paths are made of: it names something of its own and holds no
slash. -/
def IsProper (part : String) : Prop := isPart part = true ∧ '/' ∉ part.toList

instance (part : String) : Decidable (IsProper part) := inferInstanceAs (Decidable (_ ∧ _))

end Path

/-- A root and the parts below it. -/
structure Path where
  root : Root
  parts : List String
  proper : ∀ part ∈ parts, Path.IsProper part := by decide +kernel
  deriving DecidableEq, Repr

namespace Path

/-- A path is its root and its parts. -/
theorem eq_of_parts {left right : Path} (root : left.root = right.root)
    (parts : left.parts = right.parts) : left = right := by
  cases left
  cases right
  cases root
  cases parts
  rfl

/-- The root that a list of characters starts with. -/
def rootOf : List Char → Root
  | '/' :: '/' :: '/' :: _ => .slash
  | '/' :: '/' :: _ => .doubleSlash
  | '/' :: _ => .slash
  | _ => .relative

/-- The parts of a text. -/
def partsOf (s : String) : List String := (Text.splitAt '/' s).filter isPart

private theorem isProper_of_mem_splitAt {s piece : String} (member : piece ∈ Text.splitAt '/' s)
    (named : isPart piece = true) : IsProper piece := by
  obtain ⟨chars, inside, rfl⟩ := List.mem_map.mp member
  refine ⟨named, ?_⟩
  rw [String.toList_ofList]
  exact Text.not_mem_of_mem_splitChars inside

/-- Reading a text gives proper parts only. -/
theorem isProper_of_mem_partsOf {s part : String} (member : part ∈ partsOf s) :
    IsProper part := by
  obtain ⟨piece, named⟩ := List.mem_filter.mp member
  exact isProper_of_mem_splitAt piece named

/-- The path that a text spells. -/
def ofString (s : String) : Path :=
  ⟨rootOf s.toList, partsOf s, fun _ => isProper_of_mem_partsOf⟩

/-- The text of a root. -/
def rootText : Root → String
  | .relative => ""
  | .slash => "/"
  | .doubleSlash => "//"

/-- The text of relative parts; the empty path is a single dot. -/
def relativeText (parts : List String) : String :=
  if parts.isEmpty then "." else Text.join "/" parts

/-- The text of a root and parts below it. -/
def spell (root : Root) (parts : List String) : String :=
  if root = .relative then relativeText parts else rootText root ++ Text.join "/" parts

/-- The text of a path. -/
def toString (path : Path) : String := spell path.root path.parts

/-- Whether a path does not depend on where it is read from. -/
def isAbsolute (path : Path) : Bool := path.root ≠ .relative

/-- The path with more parts below it. -/
def extend (base : Path) (parts : List String) (proper : ∀ part ∈ parts, IsProper part) : Path :=
  ⟨base.root, base.parts ++ parts, List.forall_mem_append.mpr ⟨base.proper, proper⟩⟩

/-- Going down keeps the root. -/
@[simp]
theorem root_extend (base : Path) (parts : List String) (proper : ∀ part ∈ parts, IsProper part) :
    (base.extend parts proper).root = base.root := rfl

/-- Going down appends the parts. -/
@[simp]
theorem parts_extend (base : Path) (parts : List String)
    (proper : ∀ part ∈ parts, IsProper part) :
    (base.extend parts proper).parts = base.parts ++ parts := rfl

/-- Going down by nothing stays. -/
@[simp]
theorem extend_nil (base : Path) (proper : ∀ part ∈ [], IsProper part) :
    base.extend [] proper = base :=
  eq_of_parts rfl (List.append_nil base.parts)

/-- One path read from another. -/
def append (base path : Path) : Path :=
  if path.isAbsolute then path else base.extend path.parts path.proper

/-- The path that a text spells, read from another. -/
def join (base : Path) (s : String) : Path := base.append (ofString s)

/-- The last part of a path; empty for a bare root. -/
def name (path : Path) : String := path.parts.getLast?.getD ""

/-- The path without its last part. -/
def parent (path : Path) : Path :=
  ⟨path.root, path.parts.dropLast,
    fun part member => path.proper part ((List.dropLast_sublist _).subset member)⟩

/-- Cancels every `..` against the part before it. The parts already passed are
kept in reverse; below a root nothing is above the first part. -/
def cancel (rooted : Bool) : List String → List String → List String
  | passed, [] => passed.reverse
  | passed, part :: rest =>
      if part ≠ ".." then cancel rooted (part :: passed) rest
      else
        match passed with
        | [] => if rooted then cancel rooted [] rest else cancel rooted [".."] rest
        | last :: before =>
            if last = ".." then cancel rooted (".." :: last :: before) rest
            else cancel rooted before rest

/-- Cancelling adds no parts. -/
theorem mem_of_mem_cancel {rooted : Bool} {passed rest : List String} {part : String}
    (member : part ∈ cancel rooted passed rest) : part ∈ passed ∨ part ∈ rest := by
  fun_induction cancel rooted passed rest with
  | case1 passed => exact Or.inl (List.mem_reverse.mp member)
  -- The two dots that are kept above everything are the part that was read.
  | case2 | case3 | case4 | case5 | case6 => grind

/-- A path without `x/..` detours. -/
def normalize (path : Path) : Path :=
  ⟨path.root, cancel path.isAbsolute [] path.parts, fun part member =>
    path.proper part ((mem_of_mem_cancel member).resolve_left List.not_mem_nil)⟩

/-- The parts of a normalized path are what is left once detours cancel. -/
theorem parts_normalize (path : Path) :
    path.normalize.parts = cancel path.isAbsolute [] path.parts := rfl

/-- What is left of a list behind another that it starts with. -/
def behind : List String → List String → Option (List String)
  | [], parts => some parts
  | first :: base, part :: parts => if first = part then behind base parts else none
  | _ :: _, [] => none

/-- The parts of a path below another, if it lies there as written. -/
def relativeTo? (path base : Path) : Option (List String) :=
  if path.root = base.root then behind base.parts path.parts else none

/-- The directory part of a text: all that stands before its last slash. -/
def directoryOf (s : String) : Path :=
  ⟨rootOf s.toList, (Text.splitAt '/' s).dropLast.filter isPart, fun _ member =>
    isProper_of_mem_splitAt ((List.dropLast_sublist _).subset (List.mem_filter.mp member).1)
      (List.mem_filter.mp member).2⟩

/-- A name written behind the text of a directory. -/
def joinText (directory name : String) : String :=
  if Text.endsWith directory "/" then directory ++ name else directory ++ "/" ++ name

end Path

end ModuleAtlas
