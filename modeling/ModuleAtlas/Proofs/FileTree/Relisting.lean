import ModuleAtlas.Proofs.Discovery.Reached
import ModuleAtlas.Proofs.Text.Listing

/-! # Trees that list their directories in another order

Two trees may hold the same entries and list them in different orders. A question about a
path is answered from single entries, so the answers agree. Only discovery looks at whole
directories, and it sorts the names of each before it uses them
(`ModuleAtlas.FileTree.Relists.discover_eq`).
-/

namespace ModuleAtlas.FileTree

/-- One tree holds what another one holds, with the entries of each directory listed in some
other order. -/
structure Relists (other tree : FileTree) : Prop where
  workingDir : other.workingDir = tree.workingDir
  children : ∀ directory, (other.children directory).Perm (tree.children directory)

/-- The same entries in another order make a tree that relists the first. -/
theorem relists_of_perm {other tree : FileTree} (workingDir : other.workingDir = tree.workingDir)
    (entries : other.entries.Perm tree.entries) : other.Relists tree :=
  ⟨workingDir, fun _ => entries.filterMap _⟩

namespace Relists

variable {other tree : FileTree}

private theorem entry?_eq (same : other.Relists tree) (location : Location) :
    other.entry? location = tree.entry? location := by
  rcases List.eq_nil_or_concat' location with rfl | ⟨directory, name, rfl⟩
  · rfl
  · apply Option.ext
    intro entry
    rw [← mem_children_iff, ← mem_children_iff]
    exact (same.children directory).mem_iff

private theorem walk_eq (same : other.Relists tree) (follow : Bool) (links : Nat) (here : Location)
    (names : List String) :
    other.walk follow links here names = tree.walk follow links here names := by
  -- each step of a walk asks for the entries at two locations and for nothing else
  induction links, here, names using walk.induct tree follow <;> rw [walk, walk]
  case case10 here name rest listable searchable stands opened named up short target linked
      followed links ih =>
    simp only [same.entry?_eq, stands, opened, named, up, short, linked, followed, if_false]
    exact ih
  all_goals simp only [same.entry?_eq, *, if_true, if_false, Bool.false_eq_true]

/-- Trees that list alike locate every path alike. -/
theorem locate_eq (same : other.Relists tree) (follow : Bool) (path : String) :
    other.locate follow path = tree.locate follow path := by
  unfold locate
  rw [same.workingDir, same.walk_eq]

private theorem stat_eq (same : other.Relists tree) : other.stat = tree.stat := by
  funext path
  unfold stat
  simp only [same.locate_eq, same.entry?_eq]

/-- Trees that list alike have the same regular files. -/
theorem isRegular_eq (same : other.Relists tree) : other.isRegular = tree.isRegular := by
  funext path
  unfold isRegular
  rw [same.stat_eq]

private theorem probe_eq (same : other.Relists tree) : other.probe = tree.probe := by
  funext test path
  unfold probe
  rw [same.stat_eq]

/-- Trees that list alike answer every probe alike. -/
theorem isFile?_eq (same : other.Relists tree) : other.isFile? = tree.isFile? := by
  funext path
  unfold isFile?
  rw [same.probe_eq]

/-- Trees that list alike hold the same texts. -/
theorem readText_eq (same : other.Relists tree) : other.readText = tree.readText := by
  funext path
  unfold readText readBytes
  rw [same.stat_eq]

private theorem listsAsDirectory_eq (same : other.Relists tree) (location : Location) :
    other.listsAsDirectory location = tree.listsAsDirectory location := by
  funext member
  unfold listsAsDirectory
  simp only [same.walk_eq, same.entry?_eq]

/-- A directory is listed in both trees or refused in both. -/
theorem list_eq (same : other.Relists tree) (shown : String) (location : Location) :
    other.list shown location =
      (tree.list shown location).map fun _ => other.children location := by
  unfold list
  rw [same.entry?_eq]
  by_cases long : pathLimit ≤ shown.utf8ByteSize
  · rw [if_pos long, if_pos long]
    rfl
  · rw [if_neg long, if_neg long]
    split <;> rfl

/-- Whichever members of a directory are chosen, their names are sorted alike. -/
theorem sortTexts_eq (same : other.Relists tree) (location : Location)
    (chosen : String × Entry → Bool) :
    Text.sortTexts (((other.children location).filter chosen).map Prod.fst) =
      Text.sortTexts (((tree.children location).filter chosen).map Prod.fst) :=
  Text.sortTexts_eq_of_perm (((same.children location).filter chosen).map Prod.fst)

/-- A walk finds and reports the same in both trees, in the same order. -/
theorem discoverFrom_eq (same : other.Relists tree) (filter : SourceFilter) (shown : String)
    (location : Location) (names : List String) :
    other.discoverFrom filter shown location names =
      tree.discoverFrom filter shown location names := by
  induction shown, location, names using discoverFrom.induct tree filter with
  | case1 shown location names fault refused =>
      rw [discoverFrom, discoverFrom, same.list_eq, refused]
      rfl
  | case2 shown location names members listed ih =>
      rw [discoverFrom, discoverFrom, same.list_eq, listed, (isDirectoryAt_of_list listed).2]
      dsimp only [Except.map]
      rw [same.listsAsDirectory_eq, same.sortTexts_eq, same.sortTexts_eq, same.entry?_eq]
      congr 1
      apply List.map_congr_left
      intro name _
      split
      · rfl
      · rw [same.entry?_eq]
        split
        · next listable searchable present => exact ih name listable searchable present
        · rfl

/-- Discovery does not depend on the order in which a tree lists its entries. -/
theorem discover_eq (same : other.Relists tree) (filter : SourceFilter) (root : Path) :
    other.discover filter root = tree.discover filter root := by
  unfold discover exists? isDirectory?
  simp only [same.probe_eq, same.locate_eq, same.discoverFrom_eq]

end Relists

end ModuleAtlas.FileTree
