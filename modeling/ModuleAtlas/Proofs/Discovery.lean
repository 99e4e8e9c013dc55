import ModuleAtlas.Discovery
import ModuleAtlas.Proofs.Path.Normal

/-! # What discovery finds

The names of discovered files are made of the names of entries on the way down, so
they are normal, and all that discovery reports is about the root and directories
(`ModuleAtlas.Discovery.Sound`). A walk keeps this from directory to directory
(`ModuleAtlas.FileTree.sound_discoverFrom`).
-/

namespace ModuleAtlas

/-- A notice that discovery may report. -/
inductive Notice.OfDiscovery : Notice → Prop where
  | missingRoot (root : String) : OfDiscovery (.missingRoot root)
  | rootNotDirectory (root : String) : OfDiscovery (.rootNotDirectory root)
  | unreadable (path : String) (fault : Fault) : OfDiscovery (.unreadableDirectory path fault)
  | excluded (path : String) : OfDiscovery (.excludedDirectory path)
  | filesFound (count : Nat) (root : String) : OfDiscovery (.filesFound count root)

namespace Discovery

/-- What holds of everything that discovery finds. -/
structure Sound (found : Discovery) : Prop where
  files : ∀ file ∈ found.files, Path.IsNormal file
  notices : ∀ notice ∈ found.notices, notice.OfDiscovery

private theorem sound_none : Discovery.none.Sound :=
  ⟨fun _ member => absurd member List.not_mem_nil, fun _ member => absurd member List.not_mem_nil⟩

private theorem sound_unreadable (path : String) (fault : Fault) :
    (Discovery.mk [] [.unreadableDirectory path fault]).Sound := by
  refine ⟨fun _ member => absurd member List.not_mem_nil, fun notice member => ?_⟩
  rw [List.mem_singleton.mp member]
  exact .unreadable path fault

private theorem Sound.append {first second : Discovery} (left : first.Sound)
    (right : second.Sound) :
    (first.append second).Sound := by
  constructor
  · intro file member
    exact (List.mem_append.mp member).elim (left.files file) (right.files file)
  · intro notice member
    exact (List.mem_append.mp member).elim (left.notices notice) (right.notices notice)

private theorem Sound.foldl_append {own : Discovery} {below : List Discovery} (sound : own.Sound)
    (all : ∀ found ∈ below, found.Sound) : (below.foldl Discovery.append own).Sound := by
  induction below generalizing own with
  | nil => exact sound
  | cons first below ih =>
      exact ih (sound.append (all first List.mem_cons_self))
        fun found member => all found (List.mem_cons_of_mem first member)

end Discovery

namespace FileTree

private theorem isEntryName_of_mem_children {tree : FileTree} {location : Location}
    {member : String × Entry} (listed : member ∈ tree.children location) :
    isEntryName member.1 = true := by
  obtain ⟨entry, present, found⟩ := List.mem_filterMap.mp listed
  obtain ⟨name, child, rfl⟩ := Option.map_eq_some_iff.mp found
  unfold childName? at child
  split at child
  · exact tree.named entry present name (List.mem_of_getLast? child)
  · cases child

private theorem isEntryName_of_list {tree : FileTree} {shown : String} {location : Location}
    {members : List (String × Entry)} (listed : tree.list shown location = .ok members) :
    ∀ member ∈ members, isEntryName member.1 = true := by
  unfold list at listed
  split at listed
  · cases listed
  · split at listed <;> cases listed
    exact fun member => isEntryName_of_mem_children

private theorem isEntryName_of_mem_sortTexts {members : List (String × Entry)} {name : String}
    (valid : ∀ member ∈ members, isEntryName member.1 = true) {chosen : String × Entry → Bool}
    (listed : name ∈ Text.sortTexts ((members.filter chosen).map Prod.fst)) :
    isEntryName name = true := by
  rw [Text.sortTexts, List.mem_mergeSort] at listed
  obtain ⟨member, kept, rfl⟩ := List.mem_map.mp listed
  exact valid member (List.mem_filter.mp kept).1

/-- A walk from a directory finds normal names, if the names down to the directory are
those of entries. -/
theorem sound_discoverFrom (tree : FileTree) (filter : SourceFilter) (shown : String)
    (location : Location) (names : List String)
    (valid : ∀ name ∈ names, isEntryName name = true) :
    (tree.discoverFrom filter shown location names).Sound := by
  induction shown, location, names using discoverFrom.induct tree filter with
  | case1 shown location names fault unlisted =>
      rw [discoverFrom, unlisted]
      exact Discovery.sound_unreadable shown fault
  | case2 shown location names members listed ih =>
      have named := isEntryName_of_list listed
      have below : ∀ name, isEntryName name = true → ∀ other ∈ names ++ [name],
          isEntryName other = true := by
        intro name entry other member
        rcases List.mem_append.mp member with outer | last
        · exact valid other outer
        · rw [List.mem_singleton.mp last]
          exact entry
      rw [discoverFrom, listed]
      dsimp only
      apply Discovery.Sound.foldl_append
      · constructor
        · intro file member
          obtain ⟨name, kept, rfl⟩ := List.mem_map.mp member
          have entry := isEntryName_of_mem_sortTexts named (List.mem_filter.mp kept).1
          exact isNormal_join_of_isEntryName (List.concat_ne_nil _ _) (below name entry)
        · intro notice member
          obtain ⟨name, -, rfl⟩ := List.mem_map.mp member
          exact .excluded _
      · intro found member
        obtain ⟨name, kept, rfl⟩ := List.mem_map.mp member
        have entry := isEntryName_of_mem_sortTexts named (List.mem_filter.mp kept).1
        split
        · exact Discovery.sound_unreadable _ _
        · split
          · next listable searchable present =>
              exact ih name listable searchable present (below name entry)
          · exact Discovery.sound_none

/-- Discovery answers normal names, and reports only what is about the root and
directories. -/
theorem sound_discover (tree : FileTree) (filter : SourceFilter) (root : Path) :
    (∀ files, (tree.discover filter root).2 = .ok files → ∀ file ∈ files, Path.IsNormal file) ∧
      ∀ notice ∈ (tree.discover filter root).1, notice.OfDiscovery := by
  unfold discover
  dsimp only
  split
  · exact ⟨nofun, List.forall_mem_nil _⟩
  · exact ⟨by simp, List.forall_mem_singleton.mpr (.missingRoot _)⟩
  · exact ⟨nofun, List.forall_mem_nil _⟩
  · exact ⟨by simp, List.forall_mem_singleton.mpr (.rootNotDirectory _)⟩
  · split
    · exact ⟨by simp, List.forall_mem_singleton.mpr (.unreadable _ _)⟩
    · next location located =>
        have sound := sound_discoverFrom tree filter root.toString location []
          fun _ member => absurd member List.not_mem_nil
        refine ⟨fun files same => ?_, fun notice member => ?_⟩
        · cases same
          exact sound.files
        · rcases List.mem_append.mp member with inner | last
          · exact sound.notices notice inner
          · rw [List.mem_singleton.mp last]
            exact .filesFound _ _

end FileTree

end ModuleAtlas
