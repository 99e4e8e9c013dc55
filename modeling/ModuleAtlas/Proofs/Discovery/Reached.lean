import Mathlib.Data.List.Nodup
import ModuleAtlas.Proofs.Discovery
import ModuleAtlas.Proofs.FileTree.Reach

/-! # Which files discovery reaches

A walk goes down through directories, never through links, and stops at directories that
are excluded. So what it finds are entries that stand below directories that are spared
(`ModuleAtlas.FileTree.exists_reaches_of_mem_discoverFrom`), and it finds all of them if the
directories on the way can be listed (`ModuleAtlas.FileTree.mem_discoverFrom_of_reaches`). No
file is found twice, since the names on the way to it are read back from its path
(`ModuleAtlas.FileTree.nodup_discoverFrom`).
-/

namespace ModuleAtlas

namespace FileTree

variable {tree : FileTree} {filter : SourceFilter} {shown name file : String}
variable {here inner above : List String} {entry : Entry} {members : List (String × Entry)}

private theorem childName?_eq_some_iff {location : Location} :
    childName? here location = some name ↔ location = here ++ [name] := by
  unfold childName?
  constructor
  · intro child
    split at child
    · next directory =>
        rw [← directory]
        exact (List.dropLast_append_getLast? name child).symm
    · cases child
  · rintro rfl
    rw [List.dropLast_concat, if_pos rfl, List.getLast?_concat]

/-- Below the top, an entry is found exactly where the tree lists it. -/
theorem entry?_eq_some_iff {location : Location} (below : location ≠ []) :
    tree.entry? location = some entry ↔ (location, entry) ∈ tree.entries := by
  unfold entry?
  rw [if_neg below, List.lookup_eq_some_iff]
  constructor
  · rintro ⟨before, after, whole, -⟩
    rw [whole]
    simp only [List.mem_append, List.mem_cons, true_or, or_true]
  · intro present
    obtain ⟨before, after, whole⟩ := List.append_of_mem present
    refine ⟨before, after, whole, fun other member => ?_⟩
    have distinct := tree.distinct
    rw [whole, List.map_append, List.map_cons, List.nodup_append] at distinct
    have differs := distinct.2.2 other.1 (List.mem_map_of_mem member) location (by simp)
    simpa only [bne_iff_ne, ne_eq] using Ne.symm differs

/-- A directory lists the names of the entries that stand directly below it. -/
theorem mem_children_iff :
    (name, entry) ∈ tree.children here ↔ tree.entry? (here ++ [name]) = some entry := by
  rw [entry?_eq_some_iff (List.concat_ne_nil _ _)]
  unfold children
  rw [List.mem_filterMap]
  constructor
  · rintro ⟨⟨location, other⟩, present, found⟩
    obtain ⟨last, child, same⟩ := Option.map_eq_some_iff.mp found
    cases same
    rwa [← childName?_eq_some_iff.mp child]
  · intro present
    exact ⟨_, present, by rw [childName?_eq_some_iff.mpr rfl]; rfl⟩

/-- No two entries directly below a directory have one name. -/
theorem nodup_children (tree : FileTree) (here : Location) :
    ((tree.children here).map Prod.fst).Nodup := by
  have names : (tree.children here).map Prod.fst =
      (tree.entries.map Prod.fst).filterMap (childName? here) := by
    rw [children, List.map_filterMap, List.filterMap_map]
    congr 1
    funext entry
    simp only [Option.map_map, Function.comp_def, Option.map_id_fun', id_eq, Function.comp_apply]
  rw [names]
  refine tree.distinct.filterMap fun left right name inLeft inRight => ?_
  rw [childName?_eq_some_iff.mp inLeft, childName?_eq_some_iff.mp inRight]

/-- A directory stands at a location. -/
def IsDirectoryAt (tree : FileTree) (location : Location) : Prop :=
  ∃ listable searchable, tree.entry? location = some (.directory listable searchable)

/-- Names lead from a location down through directories, none of them a link. -/
def LeadsDown (tree : FileTree) : Location → List String → Prop
  | here, [] => tree.IsDirectoryAt here
  | here, name :: inner => tree.IsDirectoryAt here ∧ tree.LeadsDown (here ++ [name]) inner

/-- The directory that names lead down to can be listed along its written path: each
directory above it may be searched, and it lists its own entries. -/
def CanList (tree : FileTree) : String → Location → List String → Prop
  | shown, here, [] => ∃ members, tree.list shown here = .ok members
  | shown, here, name :: inner =>
      ((tree.entry? here).map Entry.isSearchable).getD false = true ∧
        tree.CanList (Path.joinText shown name) (here ++ [name]) inner

/-- Every directory that names lead down to can be listed. -/
def CanListAll (tree : FileTree) (shown : String) (here : Location) : Prop :=
  ∀ inner, tree.LeadsDown here inner → tree.CanList shown here inner

/-- An entry that is not shown as a directory stands below directories. -/
structure Reaches (tree : FileTree) (here : Location) (inner : List String) (name : String) :
    Prop where
  leads : tree.LeadsDown here inner
  stands : ∃ entry, tree.entry? (here ++ inner ++ [name]) = some entry ∧
    tree.listsAsDirectory (here ++ inner) (name, entry) = false

end FileTree

/-- No directory on the way down is excluded, each with its path below the root. -/
def SourceFilter.Spares (filter : SourceFilter) : List String → List String → Prop
  | _, [] => True
  | above, name :: inner =>
      filter.excludes (Text.join "/" (above ++ [name])) = false ∧
        filter.Spares (above ++ [name]) inner

namespace FileTree

variable {tree : FileTree} {filter : SourceFilter} {shown name file : String}
variable {here inner above : List String} {entry : Entry} {members : List (String × Entry)}

/-- Only a directory leads down. -/
theorem LeadsDown.isDirectoryAt (leads : tree.LeadsDown here inner) : tree.IsDirectoryAt here := by
  cases inner with
  | nil => exact leads
  | cons name inner => exact leads.1

/-- What can be listed is a directory, and the listing is its children. -/
theorem isDirectoryAt_of_list (listed : tree.list shown here = .ok members) :
    tree.IsDirectoryAt here ∧ members = tree.children here := by
  unfold list at listed
  split at listed
  · cases listed
  · split at listed <;> cases listed
    next searchable present => exact ⟨⟨true, searchable, present⟩, rfl⟩

private theorem CanListAll.below (all : tree.CanListAll shown here)
    (directory : tree.IsDirectoryAt here) (below : tree.IsDirectoryAt (here ++ [name])) :
    ((tree.entry? here).map Entry.isSearchable).getD false = true ∧
      tree.CanListAll (Path.joinText shown name) (here ++ [name]) := by
  refine ⟨(all [name] ⟨directory, below⟩).1, fun inner leads => ?_⟩
  exact (all (name :: inner) ⟨directory, leads⟩).2

/-- The names of chosen entries, in order. -/
theorem mem_sortTexts_iff {chosen : String × Entry → Bool} :
    name ∈ Text.sortTexts (((tree.children here).filter chosen).map Prod.fst) ↔
      ∃ entry, tree.entry? (here ++ [name]) = some entry ∧ chosen (name, entry) = true := by
  simp only [Text.sortTexts, List.mem_mergeSort, List.mem_map, List.mem_filter, Prod.exists,
    exists_and_right, exists_eq_right, mem_children_iff]

private theorem nodup_sortTexts (tree : FileTree) (here : Location)
    (chosen : String × Entry → Bool) :
    (Text.sortTexts (((tree.children here).filter chosen).map Prod.fst)).Nodup :=
  (List.mergeSort_perm _ _).nodup_iff.mpr
    ((List.filter_sublist.map Prod.fst).nodup (tree.nodup_children here))

/-- The files that a walk finds in a directory that it may go down to. -/
def filesBelow (tree : FileTree) (filter : SourceFilter) (shown : String) (here : Location)
    (above : List String) (name : String) : List String :=
  if !((tree.entry? here).map Entry.isSearchable).getD false then []
  else
    match tree.entry? (here ++ [name]) with
    | some (.directory _ _) =>
        (tree.discoverFrom filter (Path.joinText shown name) (here ++ [name])
          (above ++ [name])).files
    | _ => []

private theorem mem_filesBelow_iff :
    file ∈ tree.filesBelow filter shown here above name ↔
      ((tree.entry? here).map Entry.isSearchable).getD false = true ∧
        tree.IsDirectoryAt (here ++ [name]) ∧
        file ∈ (tree.discoverFrom filter (Path.joinText shown name) (here ++ [name])
          (above ++ [name])).files := by
  unfold filesBelow IsDirectoryAt
  split
  · next closed => simp_all
  · next opened =>
      split
      · next listable searchable present => simp_all
      · next other => simp_all

private theorem files_foldl_append (own : Discovery) (below : List Discovery) :
    (below.foldl Discovery.append own).files = own.files ++ below.flatMap Discovery.files := by
  induction below generalizing own with
  | nil => simp only [List.foldl_nil, List.flatMap_nil, List.append_nil]
  | cons first below ih =>
      simp only [List.foldl_cons, Discovery.append, ih, List.append_assoc, List.flatMap_cons]

/-- What a walk finds in a directory: its own files, and those of the directories that are
not excluded. -/
theorem files_discoverFrom (listed : tree.list shown here = .ok members) (filter : SourceFilter)
    (above : List String) :
    (tree.discoverFrom filter shown here above).files =
      ((Text.sortTexts (((tree.children here).filter
          (!tree.listsAsDirectory here ·)).map Prod.fst)).filter filter.supports).map
        (fun name => Text.join "/" (above ++ [name])) ++
      ((Text.sortTexts (((tree.children here).filter
          (tree.listsAsDirectory here)).map Prod.fst)).filter
        fun name => !filter.excludes (Text.join "/" (above ++ [name]))).flatMap
          (tree.filesBelow filter shown here above) := by
  rw [discoverFrom, listed, (isDirectoryAt_of_list listed).2]
  dsimp only
  rw [files_foldl_append, List.flatMap_map]
  congr 1
  apply List.flatMap_congr
  intro name _
  unfold filesBelow
  split
  · rfl
  · split
    · next listable searchable present => rw [present]
    · next other =>
        split
        · next listable searchable present => exact (other listable searchable present).elim
        · rfl

/-- Nothing is found below the top of an empty tree. -/
theorem discover_empty {root : Path} (spelled : root.toString = "/") (filter : SourceFilter) :
    ∃ found, empty.discover filter root = (found, .ok []) := by
  have files : (empty.discoverFrom filter "/" [] []).files = [] := by
    have short : ¬ pathLimit ≤ "/".utf8ByteSize := by decide +kernel
    have listed : empty.list "/" [] = .ok [] := if_neg short
    have childless : empty.children [] = [] := rfl
    rw [files_discoverFrom listed, childless]
    simp only [List.filter_nil, List.map_nil, Text.sortTexts, List.mergeSort_nil, List.flatMap_nil,
      List.append_nil]
  unfold discover exists? isDirectory? probe
  dsimp only
  rw [spelled, stat_slash, locate_slash]
  dsimp only [Entry.isDirectory]
  rw [files]
  exact ⟨_, rfl⟩

/-- What a walk finds in a directory stands there, or below a directory that is spared. -/
theorem mem_discoverFrom_iff (listed : tree.list shown here = .ok members) :
    file ∈ (tree.discoverFrom filter shown here above).files ↔
      (∃ name, tree.Reaches here [] name ∧ filter.supports name = true ∧
        file = Text.join "/" (above ++ [name])) ∨
      ∃ name, filter.excludes (Text.join "/" (above ++ [name])) = false ∧
        file ∈ tree.filesBelow filter shown here above name := by
  have directory := (isDirectoryAt_of_list listed).1
  rw [files_discoverFrom listed, List.mem_append, List.mem_map, List.mem_flatMap]
  simp only [List.mem_filter, mem_sortTexts_iff, Bool.not_eq_true']
  constructor
  · rintro (⟨name, ⟨⟨entry, present, other⟩, supported⟩, rfl⟩ | ⟨name, ⟨-, spared⟩, found⟩)
    · refine Or.inl ⟨name, ⟨directory, entry, ?_, ?_⟩, supported, rfl⟩
      · rwa [List.append_nil]
      · rwa [List.append_nil]
    · exact Or.inr ⟨name, spared, found⟩
  · rintro (⟨name, ⟨-, entry, present, other⟩, supported, rfl⟩ | ⟨name, spared, found⟩)
    · rw [List.append_nil] at present other
      exact Or.inl ⟨name, ⟨⟨entry, present, other⟩, supported⟩, rfl⟩
    · obtain ⟨-, ⟨listable, searchable, present⟩, -⟩ := mem_filesBelow_iff.mp found
      exact Or.inr ⟨name, ⟨⟨_, present, rfl⟩, spared⟩, found⟩

/-- Below a directory an entry is reached by one name more. -/
theorem Reaches.below (directory : tree.IsDirectoryAt here)
    (reaches : tree.Reaches (here ++ [name]) inner file) :
    tree.Reaches here (name :: inner) file := by
  refine ⟨⟨directory, reaches.leads⟩, ?_⟩
  simpa only [List.append_assoc, List.cons_append, List.nil_append] using reaches.stands

/-- A walk finds only entries that it reaches, below directories that are spared. -/
theorem exists_reaches_of_mem_discoverFrom (tree : FileTree) (filter : SourceFilter)
    (shown : String) (here : Location) (above : List String) :
    ∀ file ∈ (tree.discoverFrom filter shown here above).files,
      ∃ inner name, tree.Reaches here inner name ∧ filter.Spares above inner ∧
        filter.supports name = true ∧ file = Text.join "/" (above ++ inner ++ [name]) := by
  induction shown, here, above using discoverFrom.induct tree filter with
  | case1 shown here above fault unlisted =>
      rw [discoverFrom, unlisted]
      simp only [List.not_mem_nil, List.append_assoc, IsEmpty.forall_iff, implies_true]
  | case2 shown here above members listed ih =>
      intro file member
      rcases (mem_discoverFrom_iff listed).mp member with
        ⟨name, reaches, supported, rfl⟩ | ⟨first, spared, found⟩
      · exact ⟨[], name, reaches, trivial, supported, by simp only [List.append_nil]⟩
      · obtain ⟨-, ⟨listable, searchable, present⟩, below⟩ := mem_filesBelow_iff.mp found
        obtain ⟨inner, name, reaches, spares, supported, rfl⟩ :=
          ih first listable searchable present file below
        exact ⟨first :: inner, name, reaches.below (isDirectoryAt_of_list listed).1,
          ⟨spared, spares⟩, supported, by simp⟩

/-- A walk finds every entry that it reaches below directories that are spared, if all
directories can be listed. -/
theorem mem_discoverFrom_of_reaches (all : tree.CanListAll shown here)
    (reaches : tree.Reaches here inner name) (spares : filter.Spares above inner)
    (supported : filter.supports name = true) :
    Text.join "/" (above ++ inner ++ [name]) ∈
      (tree.discoverFrom filter shown here above).files := by
  induction inner generalizing shown here above with
  | nil =>
      obtain ⟨members, listed⟩ := all [] reaches.leads
      rw [mem_discoverFrom_iff listed]
      exact Or.inl ⟨name, reaches, supported, by simp only [List.append_nil]⟩
  | cons first inner ih =>
      have directory := reaches.leads.1
      have below := reaches.leads.2.isDirectoryAt
      obtain ⟨members, listed⟩ := all [] directory
      obtain ⟨searchable, allBelow⟩ := all.below directory below
      have inside : tree.Reaches (here ++ [first]) inner name :=
        ⟨reaches.leads.2, by simpa using reaches.stands⟩
      have found := ih allBelow inside spares.2
      rw [mem_discoverFrom_iff listed]
      refine Or.inr ⟨first, spares.1, mem_filesBelow_iff.mpr ⟨searchable, below, ?_⟩⟩
      simpa only [List.append_assoc, List.cons_append, List.nil_append] using found

/-- The names on the way to a file that is reached are names of entries. -/
theorem Reaches.isEntryName (reaches : tree.Reaches here inner name) :
    ∀ part ∈ inner ++ [name], ModuleAtlas.isEntryName part = true := by
  obtain ⟨entry, present, -⟩ := reaches.stands
  intro part member
  rw [List.append_assoc] at present
  exact isEntryName_of_entry? present part (List.mem_append_right here member)

private theorem forall_mem_append_isEntryName
    (left : ∀ part ∈ above, ModuleAtlas.isEntryName part = true)
    (right : ∀ part ∈ inner, ModuleAtlas.isEntryName part = true) :
    ∀ part ∈ above ++ inner, ModuleAtlas.isEntryName part = true :=
  fun part member => (List.mem_append.mp member).elim (left part) (right part)

/-- The names on the way to a file are read back from its path. -/
theorem splitAt_join_of_isEntryName (nonempty : above ≠ [])
    (valid : ∀ part ∈ above, ModuleAtlas.isEntryName part = true) :
    Text.splitAt '/' (Text.join "/" above) = above :=
  Text.splitAt_join nonempty fun part member => (isProper_of_isEntryName (valid part member)).1.2

private theorem exists_splitAt_of_mem_filesBelow
    (valid : ∀ part ∈ above, ModuleAtlas.isEntryName part = true)
    (found : file ∈ tree.filesBelow filter shown here above name) :
    ∃ inner last, Text.splitAt '/' file = above ++ name :: (inner ++ [last]) := by
  obtain ⟨-, ⟨listable, searchable, present⟩, below⟩ := mem_filesBelow_iff.mp found
  have named : ∀ part ∈ [name], ModuleAtlas.isEntryName part = true :=
    fun part member => isEntryName_of_entry? present part (List.mem_append_right here member)
  obtain ⟨inner, last, reaches, -, -, rfl⟩ :=
    exists_reaches_of_mem_discoverFrom tree filter _ _ _ file below
  refine ⟨inner, last, ?_⟩
  rw [List.append_assoc, splitAt_join_of_isEntryName (by simp)
    (forall_mem_append_isEntryName (forall_mem_append_isEntryName valid named) reaches.isEntryName)]
  simp only [List.append_assoc, List.cons_append, List.nil_append]

/-- A walk finds no file twice, if the names down to its directory are those of entries. -/
theorem nodup_discoverFrom (tree : FileTree) (filter : SourceFilter) (shown : String)
    (here : Location) (above : List String)
    (valid : ∀ part ∈ above, ModuleAtlas.isEntryName part = true) :
    (tree.discoverFrom filter shown here above).files.Nodup := by
  induction shown, here, above using discoverFrom.induct tree filter with
  | case1 shown here above fault unlisted =>
      rw [discoverFrom, unlisted]
      exact List.nodup_nil
  | case2 shown here above members listed ih =>
      have validBelow : ∀ {name entry}, tree.entry? (here ++ [name]) = some entry →
          ∀ part ∈ above ++ [name], ModuleAtlas.isEntryName part = true := by
        intro name entry present
        exact forall_mem_append_isEntryName valid fun part member =>
          isEntryName_of_entry? present part (List.mem_append_right here member)
      have split : ∀ {name chosen}, name ∈ Text.sortTexts
          (((tree.children here).filter chosen).map Prod.fst) →
          Text.splitAt '/' (Text.join "/" (above ++ [name])) = above ++ [name] := by
        intro name chosen member
        obtain ⟨entry, present, -⟩ := mem_sortTexts_iff.mp member
        exact splitAt_join_of_isEntryName (List.concat_ne_nil _ _) (validBelow present)
      rw [files_discoverFrom listed]
      refine List.nodup_append.mpr ⟨?_, List.nodup_flatMap.mpr ⟨?_, ?_⟩, ?_⟩
      · apply ((tree.nodup_sortTexts here _).filter _).map_on
        intro first inFirst second inSecond same
        have whole := congrArg (Text.splitAt '/') same
        rw [split (List.mem_filter.mp inFirst).1, split (List.mem_filter.mp inSecond).1] at whole
        simpa only [List.append_cancel_left_eq, List.cons.injEq, and_true] using whole
      · intro name _
        unfold filesBelow
        split
        · exact List.nodup_nil
        · split
          · next listable searchable present =>
              exact ih name listable searchable present (validBelow present)
          · exact List.nodup_nil
      · refine ((tree.nodup_sortTexts here _).filter _).imp fun differs file inFirst inSecond => ?_
        obtain ⟨_, _, first⟩ := exists_splitAt_of_mem_filesBelow valid inFirst
        obtain ⟨_, _, second⟩ := exists_splitAt_of_mem_filesBelow valid inSecond
        have whole := List.append_cancel_left (first.symm.trans second)
        exact differs (List.cons.inj whole).1
      · intro own inOwn other inOther same
        subst same
        obtain ⟨name, listedName, rfl⟩ := List.mem_map.mp inOwn
        obtain ⟨first, -, found⟩ := List.mem_flatMap.mp inOther
        obtain ⟨inner, last, pieces⟩ := exists_splitAt_of_mem_filesBelow valid found
        rw [split (List.mem_filter.mp listedName).1] at pieces
        simpa using congrArg List.length pieces

end FileTree

end ModuleAtlas
