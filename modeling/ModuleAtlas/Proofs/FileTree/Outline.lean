import ModuleAtlas.Proofs.FileTree.Relisting

/-! # Trees that differ in the contents of their files

The outline of a tree keeps where its files, directories and links stand and forgets what is
in the files. Paths lead to the same locations in a tree and in its outline, and discovery
finds the same files, so trees with one outline agree on every question that does not read a
file (`ModuleAtlas.FileTree.SameOutline`).
-/

namespace ModuleAtlas

/-- An entry without the content of a file. -/
def Entry.outline : Entry → Entry
  | .file _ _ => .file [] true
  | .directory listable searchable => .directory listable searchable
  | .link target => .link target

/-- The outline of a file is a file. -/
@[simp]
theorem Entry.isFile_outline (entry : Entry) : entry.outline.isFile = entry.isFile := by
  cases entry <;> rfl

/-- The outline of a directory is a directory. -/
@[simp]
theorem Entry.isDirectory_outline (entry : Entry) :
    entry.outline.isDirectory = entry.isDirectory := by
  cases entry <;> rfl

/-- An outline can be searched as its entry can. -/
@[simp]
theorem Entry.isSearchable_outline (entry : Entry) :
    entry.outline.isSearchable = entry.isSearchable := by
  cases entry <;> rfl

namespace FileTree

/-- The tree with every file emptied and readable. -/
def outline (tree : FileTree) : FileTree :=
  { tree with
    entries := tree.entries.map fun entry => (entry.1, entry.2.outline)
    distinct := by
      rw [List.map_map]
      exact tree.distinct
    named := by
      intro entry member
      obtain ⟨old, present, rfl⟩ := List.mem_map.mp member
      exact tree.named old present }

variable (tree : FileTree)

private theorem entry?_outline (location : Location) :
    tree.outline.entry? location = (tree.entry? location).map Entry.outline := by
  have looked (entries : List (Location × Entry)) :
      (entries.map fun entry => (entry.1, entry.2.outline)).lookup location =
        (entries.lookup location).map Entry.outline := by
    induction entries with
    | nil => rfl
    | cons entry entries ih =>
        rw [List.map_cons, List.lookup_cons, List.lookup_cons, ih]
        split <;> rfl
  unfold entry?
  split
  · rfl
  · exact looked tree.entries

private theorem children_outline (directory : Location) :
    tree.outline.children directory =
      (tree.children directory).map fun member => (member.1, member.2.outline) := by
  unfold children outline
  rw [List.filterMap_map, List.map_filterMap]
  congr 1
  funext entry
  simp only [Function.comp_apply, Option.map_map]
  rfl

private theorem walk_outline (follow : Bool) (links : Nat) (here : Location) (names : List String) :
    tree.outline.walk follow links here names = tree.walk follow links here names := by
  -- a walk tells links, directories and all else apart, which an outline does too
  induction links, here, names using walk.induct tree follow <;> rw [walk, walk]
  case case10 here name rest listable searchable stands opened named up short target linked
      followed links ih =>
    simp only [entry?_outline, stands, opened, named, up, short, linked, followed, if_false,
      Option.map_some, Entry.outline, Bool.false_eq_true]
    exact ih
  case case11 here name rest listable searchable stands opened named up short entry plain
      present ih =>
    simp only [entry?_outline, stands, opened, named, up, short, present, ih, if_false,
      Option.map_some, Entry.outline]
    cases entry with
    | link target => exact absurd rfl (plain target)
    | file content readable => rfl
    | directory listable searchable => rfl
  case case12 here name rest elsewhere =>
    rw [entry?_outline]
    cases stands : tree.entry? here with
    | none => rfl
    | some entry =>
        cases entry with
        | directory listable searchable => exact absurd stands (elsewhere listable searchable)
        | file content readable => rfl
        | link target => rfl
  all_goals
    simp only [entry?_outline, *, if_true, if_false, Bool.false_eq_true, Option.map_some,
      Option.map_none, Entry.outline]

/-- Locating a path looks at the outline only. -/
@[simp]
theorem locate_outline (follow : Bool) (path : String) :
    tree.outline.locate follow path = tree.locate follow path := by
  unfold locate
  rw [walk_outline]
  rfl

private theorem stat_outline (path : String) :
    tree.outline.stat path = (tree.stat path).map Entry.outline := by
  unfold stat
  rw [locate_outline]
  cases tree.locate true path with
  | error fault => rfl
  | ok location =>
      dsimp only [bind, Except.bind]
      rw [entry?_outline]
      cases tree.entry? location <;> rfl

private theorem isRegular_outline : tree.outline.isRegular = tree.isRegular := by
  funext path
  unfold isRegular
  rw [stat_outline]
  cases tree.stat path with
  | error fault => rfl
  | ok entry => exact entry.isFile_outline

/-- A test that takes an entry for its outline is answered alike. -/
theorem probe_outline {test : Entry → Bool} (blind : ∀ entry, test entry.outline = test entry) :
    tree.outline.probe test = tree.probe test := by
  funext path
  unfold probe
  rw [stat_outline]
  cases tree.stat path with
  | error fault => rfl
  | ok entry => exact congrArg Except.ok (blind entry)

private theorem isFile?_outline : tree.outline.isFile? = tree.isFile? :=
  tree.probe_outline Entry.isFile_outline

private theorem listsAsDirectory_outline (location : Location) (member : String × Entry) :
    tree.outline.listsAsDirectory location (member.1, member.2.outline) =
      tree.listsAsDirectory location member := by
  obtain ⟨name, entry⟩ := member
  cases entry with
  | file content readable => rfl
  | directory listable searchable => rfl
  | link target =>
      simp only [listsAsDirectory, Entry.outline, walk_outline]
      cases tree.walk true linkLimit location [name] with
      | error fault => rfl
      | ok target =>
          dsimp only
          rw [entry?_outline, Option.map_map]
          congr 2
          funext entry
          exact entry.isDirectory_outline

/-- A directory is listed in a tree and in its outline, or refused in both. -/
theorem list_outline (shown : String) (location : Location) :
    tree.outline.list shown location =
      (tree.list shown location).map (List.map fun member => (member.1, member.2.outline)) := by
  unfold list
  rw [entry?_outline, children_outline]
  by_cases long : pathLimit ≤ shown.utf8ByteSize
  · rw [if_pos long, if_pos long]
    rfl
  · rw [if_neg long, if_neg long]
    cases tree.entry? location with
    | none => rfl
    | some entry =>
        cases entry with
        | directory listable searchable => cases listable <;> rfl
        | file content readable => rfl
        | link target => rfl

/-- The members of a directory that are chosen for what they are shown as have one outline. -/
theorem names_outline (location : Location) (members : List (String × Entry))
    (shown : Bool → Bool) :
    ((members.map fun member => (member.1, member.2.outline)).filter fun member =>
        shown (tree.outline.listsAsDirectory location member)).map Prod.fst =
      (members.filter fun member => shown (tree.listsAsDirectory location member)).map
        Prod.fst := by
  rw [List.filter_map, List.map_map]
  congr 1
  apply List.filter_congr
  intro member _
  exact congrArg shown (tree.listsAsDirectory_outline location member)

private theorem discoverFrom_outline (filter : SourceFilter) (shown : String) (location : Location)
    (names : List String) :
    tree.outline.discoverFrom filter shown location names =
      tree.discoverFrom filter shown location names := by
  induction shown, location, names using discoverFrom.induct tree filter with
  | case1 shown location names fault refused =>
      rw [discoverFrom, discoverFrom, list_outline, refused]
      rfl
  | case2 shown location names members listed ih =>
      have directories := tree.names_outline location members id
      have others := tree.names_outline location members not
      have searchable : ((tree.outline.entry? location).map Entry.isSearchable) =
          (tree.entry? location).map Entry.isSearchable := by
        rw [entry?_outline, Option.map_map]
        congr 1
        funext entry
        exact entry.isSearchable_outline
      rw [discoverFrom, discoverFrom, list_outline, listed]
      dsimp only [Except.map, id] at directories ⊢
      rw [directories, others, searchable]
      congr 1
      apply List.map_congr_left
      intro name _
      split
      · rfl
      · rw [entry?_outline]
        cases present : tree.entry? (location ++ [name]) with
        | none => rfl
        | some entry =>
            cases entry with
            | directory listable searchable => exact ih name listable searchable present
            | file content readable => rfl
            | link target => rfl

private theorem discover_outline : tree.outline.discover = tree.discover := by
  funext filter root
  unfold discover exists? isDirectory?
  simp only [tree.probe_outline Entry.isDirectory_outline, probe_outline, locate_outline,
    discoverFrom_outline, implies_true]

/-- Two trees hold files, directories and links at the same locations, with the same rights of
the directories and the same targets of the links. -/
def SameOutline (other tree : FileTree) : Prop := other.outline.Relists tree.outline

namespace SameOutline

variable {other tree : FileTree}

/-- Trees of one outline locate every path alike. -/
theorem locate_eq (same : other.SameOutline tree) (follow : Bool) (path : String) :
    other.locate follow path = tree.locate follow path := by
  rw [← locate_outline, Relists.locate_eq same, locate_outline]

/-- Trees of one outline have the same regular files. -/
theorem isRegular_eq (same : other.SameOutline tree) : other.isRegular = tree.isRegular := by
  rw [← isRegular_outline, Relists.isRegular_eq same, isRegular_outline]

/-- Trees of one outline answer every probe alike. -/
theorem isFile?_eq (same : other.SameOutline tree) : other.isFile? = tree.isFile? := by
  rw [← isFile?_outline, Relists.isFile?_eq same, isFile?_outline]

/-- Discovery looks at the outline of a tree only. -/
theorem discover_eq (same : other.SameOutline tree) : other.discover = tree.discover := by
  funext filter root
  rw [← discover_outline, Relists.discover_eq same, discover_outline]

end SameOutline

private theorem entries_put {tree : FileTree} {location : Location} {old : Entry}
    (below : location ≠ []) (present : tree.entry? location = some old) (entry : Entry) :
    (tree.put location entry).entries =
      (location, entry) :: tree.entries.filter fun other => other.1 ≠ location := by
  have valid : location.all isEntryName :=
    List.all_eq_true.mpr (tree.named _ ((entry?_eq_some_iff below).mp present))
  rw [put, dif_pos valid]

/-- What stands at a location may be replaced, and all else is kept. -/
theorem entry?_put {tree : FileTree} {location : Location} {old : Entry} (below : location ≠ [])
    (present : tree.entry? location = some old) (entry : Entry) (other : Location) :
    FileTree.entry? (tree.put location entry) other =
      if other = location then some entry else tree.entry? other := by
  by_cases top : other = []
  · subst top
    rw [if_neg (Ne.symm below)]
    rfl
  apply Option.ext
  intro found
  rw [entry?_eq_some_iff top, entries_put below present, List.mem_cons, List.mem_filter,
    Prod.mk.injEq]
  split
  · next here =>
      subst here
      simp only [ne_eq, not_true_eq_false, decide_false, Bool.false_eq_true, and_false, or_false,
        true_and, Option.some.injEq]
      exact eq_comm
  · next elsewhere =>
      rw [entry?_eq_some_iff top]
      simp only [elsewhere, false_and, false_or, ne_eq, not_false_eq_true, decide_true, and_true]

/-- The one entry at a location is taken out by its key. -/
theorem filter_entries {tree : FileTree} {location : Location} {old : Entry}
    {before after : List (Location × Entry)}
    (whole : tree.entries = before ++ (location, old) :: after) :
    tree.entries.filter (fun other => other.1 ≠ location) = before ++ after := by
  have distinct := tree.distinct
  rw [whole, List.map_append, List.map_cons, List.nodup_middle, List.nodup_cons,
    ← List.map_append] at distinct
  have elsewhere : ∀ other ∈ before ++ after, other.1 ≠ location := by
    intro other member here
    exact distinct.1 (List.mem_map.mpr ⟨other, member, here⟩)
  rw [whole, List.filter_append, List.filter_cons_of_neg (by simp), ← List.filter_append,
    List.filter_eq_self]
  intro other member
  exact decide_eq_true (elsewhere other member)

/-- A file may be given another content without a change of the outline. -/
theorem sameOutline_put {tree : FileTree} {location : Location} {old : List UInt8}
    {kept : Bool} (below : location ≠ []) (present : tree.entry? location = some (.file old kept))
    (content : List UInt8) (readable : Bool) :
    (tree.put location (.file content readable)).SameOutline tree := by
  obtain ⟨before, after, whole⟩ := List.append_of_mem ((entry?_eq_some_iff below).mp present)
  refine relists_of_perm ?_ ?_
  · unfold outline put
    split <;> rfl
  · unfold outline
    dsimp only
    rw [entries_put below present, filter_entries whole, whole, List.map_cons, List.map_append,
      List.map_append, List.map_cons]
    exact List.perm_middle.symm

end FileTree

end ModuleAtlas
