import ModuleAtlas.Proofs.Build.Completion
import ModuleAtlas.Proofs.Discovery.Reached
import ModuleAtlas.Watch

/-! # Discovery and the watcher agree

A filter is asked about directories one by one on the way down, or about a finished path
all at once; both answers are the same (`ModuleAtlas.SourceFilter.ignores_join_iff`). So
below a root that may be looked at, discovery finds just the files that a watcher of the
same root takes in (`ModuleAtlas.FileTree.discover_eq_accepted`). A root that is refused, be
it only for a name that is too long, ends discovery with a failure.
-/

namespace ModuleAtlas

namespace SourceFilter

variable {filter : SourceFilter} {above inner : List String} {name : String}

private theorem spares_iff : filter.Spares above inner ↔ ∀ count < inner.length,
    filter.excludes (Text.join "/" (above ++ inner.take (count + 1))) = false := by
  induction inner generalizing above with
  | nil =>
      simp only [Spares, List.length_nil, not_lt_zero, List.take_nil, List.append_nil,
        IsEmpty.forall_iff, implies_true]
  | cons first inner ih =>
      rw [Spares, ih]
      constructor
      · rintro ⟨spared, later⟩ count bound
        cases count with
        | zero => exact spared
        | succ count => simpa using later count (by simpa using bound)
      · intro all
        refine ⟨all 0 (by simp), fun count bound => ?_⟩
        simpa only [List.append_assoc, List.cons_append, List.nil_append, List.take_succ_cons]
          using all (count + 1) (by simpa using bound)

/-- A path is ignored exactly if a directory on the way down to it is excluded. -/
theorem ignores_join_iff (clean : ∀ part ∈ inner ++ [name], Path.IsProper part) :
    filter.ignores (Text.join "/" (inner ++ [name])) = false ↔ filter.Spares [] inner := by
  have pieces := Text.splitAt_join (List.concat_ne_nil _ _) fun part member => (clean part member).2
  unfold ignores
  rw [pieces, List.dropLast_concat, spares_iff]
  simp only [List.any_eq_false, List.mem_range, Bool.not_eq_true, List.nil_append]

/-- Only the last name of a path tells whether it is that of a source file. -/
theorem supports_join (clean : ∀ part ∈ inner ++ [name], Path.IsProper part) :
    filter.supports (Text.join "/" (inner ++ [name])) =
      filter.extensions.any (Text.endsWith name) := by
  have parts : (Path.ofString (Text.join "/" (inner ++ [name]))).parts = inner ++ [name] :=
    Path.partsOf_join clean
  unfold supports Path.name
  rw [parts, List.getLast?_concat, Option.getD_some]

private theorem supports_join_eq (clean : ∀ part ∈ inner ++ [name], Path.IsProper part) :
    filter.supports (Text.join "/" (inner ++ [name])) = filter.supports name := by
  have alone : ∀ part ∈ [] ++ [name], Path.IsProper part :=
    fun part member => clean part (List.mem_append_right inner member)
  exact (supports_join clean).trans (supports_join alone).symm

end SourceFilter

/-- A watcher takes in a path below its root exactly if its filter does not ignore it and
supports it. -/
theorem Watcher.accepted?_join {watcher : Watcher} {parts : List String}
    (proper : ∀ part ∈ parts, Path.IsProper part) :
    watcher.accepted? (watcher.root.join (Path.relativeText parts)).toString =
      if watcher.filter.ignores (Path.relativeText parts) = false ∧
        watcher.filter.supports (Path.relativeText parts) = true
      then some (Path.relativeText parts) else none := by
  have joined := Path.join_relativeText watcher.root proper
  have spelled : Path.ofString (watcher.root.join (Path.relativeText parts)).toString =
      watcher.root.extend parts proper := by
    rw [joined, Path.ofString_toString]
  unfold Watcher.accepted?
  rw [spelled, Path.relativeTo?_extend]
  dsimp only [bind, Option.bind]
  cases watcher.filter.ignores (Path.relativeText parts) <;>
    cases watcher.filter.supports (Path.relativeText parts) <;> rfl

namespace FileTree

variable {tree : FileTree} {filter : SourceFilter} {root : Path} {file : String}

private theorem stat_eq_ok_iff {path : String} {entry : Entry} :
    tree.stat path = .ok entry ↔
      ∃ location, tree.locate true path = .ok location ∧ tree.entry? location = some entry := by
  unfold stat
  cases located : tree.locate true path with
  | error fault => simp only [bind, Except.bind, reduceCtorEq, false_and, exists_const]
  | ok location =>
      cases present : tree.entry? location <;> simp [bind, Except.bind, present]

/-- The path below a root of an entry that is not shown as a directory and is reached from
the root through directories, none of them a link. -/
def IsFileBelow (tree : FileTree) (root : Path) (file : String) : Prop :=
  ∃ start inner name, tree.locate true root.toString = .ok start ∧
    tree.Reaches start inner name ∧ file = Text.join "/" (inner ++ [name])

/-- Every directory that is reached from a root can be listed. -/
def CanListBelow (tree : FileTree) (root : Path) : Prop :=
  ∀ start, tree.locate true root.toString = .ok start → tree.CanListAll root.toString start

/-- Discovery walks from the directory that the root leads to, if there is one. -/
theorem discover_cases {files : List String}
    (found : (tree.discover filter root).2 = .ok files) :
    (∃ start, tree.locate true root.toString = .ok start ∧
      files = (tree.discoverFrom filter root.toString start []).files) ∨
    files = [] ∧ ∀ start, tree.locate true root.toString = .ok start →
      ¬ tree.IsDirectoryAt start := by
  unfold discover exists? isDirectory? probe at found
  dsimp only at found
  cases stat : tree.stat root.toString with
  | error fault =>
      right
      constructor
      · rw [stat] at found
        dsimp only at found
        by_cases absence : fault.isAbsence = true
        · rw [if_pos absence] at found
          exact (Except.ok.inj found).symm
        · rw [if_neg absence] at found
          cases found
      · rintro start located ⟨listable, searchable, present⟩
        cases stat.symm.trans (stat_eq_ok_iff.mpr ⟨start, located, present⟩)
  | ok entry =>
      obtain ⟨location, located, present⟩ := stat_eq_ok_iff.mp stat
      rw [stat] at found
      dsimp only at found
      cases directory : entry.isDirectory with
      | true =>
          rw [directory, located] at found
          exact Or.inl ⟨location, located, (Except.ok.inj found).symm⟩
      | false =>
          right
          rw [directory] at found
          refine ⟨(Except.ok.inj found).symm, ?_⟩
          rintro start again ⟨listable, searchable, isDirectory⟩
          cases located.symm.trans again
          cases present.symm.trans isDirectory
          cases directory

private theorem discover_of_refuses {fault : Fault} (refused : tree.Refuses root.toString fault) :
    (tree.discover filter root).2 = .error (.file fault root.toString) := by
  have failed : tree.exists? root.toString = .error (.file fault root.toString) :=
    probe_eq_error_iff.mpr ⟨fault, refused, rfl⟩
  unfold discover
  dsimp only
  rw [failed]

/-- Discovery fails exactly if its root is refused. -/
theorem exists_discover_eq_ok_iff :
    (∃ files, (tree.discover filter root).2 = .ok files) ↔
      ∀ fault, ¬ tree.Refuses root.toString fault := by
  constructor
  · rintro ⟨files, found⟩ fault refused
    cases found.symm.trans (discover_of_refuses refused)
  · intro answered
    obtain ⟨notices, files, found⟩ := exists_discover_eq_ok answered filter
    exact ⟨files, by rw [found]⟩

/-- Below a root that has no directories in it, discovery finds the entries of the root itself. -/
theorem discover_of_flat {directory : Location} {name : String} (absolute : root.isAbsolute = true)
    (parts : root.parts = directory ++ [name]) (short : root.toString.utf8ByteSize < pathLimit)
    (opened : tree.IsOpen root.parts)
    (present : tree.entry? root.parts = some (.directory true true))
    (flat : ∀ member ∈ tree.children root.parts, tree.listsAsDirectory root.parts member = false) :
    (tree.discover filter root).2 =
      .ok ((Text.sortTexts ((tree.children root.parts).map Prod.fst)).filter filter.supports) := by
  have valid := isEntryName_of_entry? present
  have located : tree.locate true root.toString = .ok root.parts := by
    rw [locate_of_isOpen absolute (by simp [parts])
      (fun part member => nul_notMem_of_isEntryName (valid part member)) short
      (List.append_nil root.parts).symm opened, walk]
  have answered : ∀ fault, ¬ tree.Refuses root.toString fault := by
    intro fault refused
    cases (stat_eq_ok_iff.mpr ⟨root.parts, located, present⟩).symm.trans refused.stat
  have listed : tree.list root.toString root.parts = .ok (tree.children root.parts) := by
    unfold list
    rw [if_neg (Nat.not_le.mpr short), present]
  obtain ⟨notices, files, found⟩ := exists_discover_eq_ok answered filter
  rcases discover_cases (congrArg Prod.snd found) with ⟨start, again, rfl⟩ | ⟨-, missing⟩
  · cases located.symm.trans again
    have noDirectory : (tree.children root.parts).filter (tree.listsAsDirectory root.parts) = [] :=
      List.filter_eq_nil_iff.mpr fun member isChild => ne_true_of_eq_false (flat member isChild)
    have allFiles : (tree.children root.parts).filter (!tree.listsAsDirectory root.parts ·) =
        tree.children root.parts :=
      List.filter_eq_self.mpr fun member isChild => by
        rw [flat member isChild, Bool.not_false]
    rw [found, files_discoverFrom listed, noDirectory, allFiles]
    simp [Text.join, Text.sortTexts]
  · exact absurd ⟨true, true, present⟩ (missing root.parts located)

private theorem LeadsDown.isDirectoryAt_append {start inner : List String}
    (leads : tree.LeadsDown start inner) : tree.IsDirectoryAt (start ++ inner) := by
  induction inner generalizing start with
  | nil =>
      rw [List.append_nil]
      exact leads
  | cons name inner ih =>
      have below := ih leads.2
      rwa [List.append_assoc] at below

private theorem Reaches.isProper {start inner : List String} {name : String}
    (reaches : tree.Reaches start inner name) : ∀ part ∈ inner ++ [name], Path.IsProper part :=
  fun part member => (isProper_of_isEntryName (reaches.isEntryName part member)).1

/-- The filter of a walk and that of a watcher ask the same of a path. -/
theorem Reaches.passes_iff {start inner : List String} {name : String}
    (reaches : tree.Reaches start inner name) :
    filter.Spares [] inner ∧ filter.supports name = true ↔
      filter.ignores (Text.join "/" (inner ++ [name])) = false ∧
        filter.supports (Text.join "/" (inner ++ [name])) = true := by
  rw [SourceFilter.ignores_join_iff reaches.isProper,
    SourceFilter.supports_join_eq reaches.isProper]

/-- A discovered file passes the filter, whether or not all directories can be listed. -/
theorem passes_of_mem_discover {files : List String}
    (found : (tree.discover filter root).2 = .ok files) (member : file ∈ files) :
    tree.IsFileBelow root file ∧ filter.ignores file = false ∧ filter.supports file = true := by
  rcases discover_cases found with ⟨start, located, rfl⟩ | ⟨rfl, -⟩
  · obtain ⟨inner, name, reaches, spares, supported, rfl⟩ :=
      exists_reaches_of_mem_discoverFrom tree filter _ _ _ file member
    exact ⟨⟨start, inner, name, located, reaches, rfl⟩,
      reaches.passes_iff.mp ⟨spares, supported⟩⟩
  · cases member

private theorem mem_discover_of_passes {files : List String}
    (found : (tree.discover filter root).2 = .ok files) (all : tree.CanListBelow root)
    (below : tree.IsFileBelow root file) (kept : filter.ignores file = false)
    (supported : filter.supports file = true) : file ∈ files := by
  obtain ⟨start, inner, name, located, reaches, rfl⟩ := below
  rcases discover_cases found with ⟨other, again, rfl⟩ | ⟨-, none⟩
  · cases located.symm.trans again
    obtain ⟨spares, named⟩ := reaches.passes_iff.mpr ⟨kept, supported⟩
    exact mem_discoverFrom_of_reaches (all start located) reaches spares named
  · exact absurd reaches.leads.isDirectoryAt (none start located)

private theorem nodup_discover {files : List String}
    (found : (tree.discover filter root).2 = .ok files) : files.Nodup := by
  rcases discover_cases found with ⟨start, located, rfl⟩ | ⟨rfl, -⟩
  · exact nodup_discoverFrom tree filter _ start [] fun _ member => absurd member List.not_mem_nil
  · exact List.nodup_nil

/-- A watcher takes in a file below its root under the path of the file, if its filter does
not ignore it and supports it. -/
theorem IsFileBelow.accepted? (below : tree.IsFileBelow root file) :
    (Watcher.start root filter).accepted? (root.join file).toString =
      if filter.ignores file = false ∧ filter.supports file = true then some file else none := by
  obtain ⟨start, inner, name, -, reaches, rfl⟩ := below
  have spelled : Path.relativeText (inner ++ [name]) = Text.join "/" (inner ++ [name]) := by
    rw [Path.relativeText, List.isEmpty_eq_false_iff.mpr (List.concat_ne_nil _ _)]
    rfl
  rw [← spelled]
  exact @Watcher.accepted?_join (Watcher.start root filter) _ reaches.isProper

/-- Discovery below a root returns exactly if the root is not refused. If moreover all
directories that are reached from the root can be listed, it finds each file below the root
once that the filter does not ignore and supports, and no other, and a watcher of the root
takes in just the found ones among these files, each under its own path. -/
theorem discover_eq_accepted (tree : FileTree) (filter : SourceFilter) (text : String) :
    let root := Path.ofString text
    let found := (tree.discover filter root).2
    ((∃ files, found = .ok files) ↔ ∀ fault, ¬ tree.Refuses root.toString fault) ∧
    ∀ files, found = .ok files → tree.CanListBelow root →
      files.Nodup ∧
      (∀ file, file ∈ files ↔ tree.IsFileBelow root file ∧ filter.ignores file = false ∧
        filter.supports file = true) ∧
      ∀ file, tree.IsFileBelow root file →
        (Watcher.start root filter).accepted? (root.join file).toString =
          if file ∈ files then some file else none := by
  intro root found
  refine ⟨exists_discover_eq_ok_iff, fun files returned all => ?_⟩
  have agrees : ∀ file, file ∈ files ↔ tree.IsFileBelow root file ∧
      filter.ignores file = false ∧ filter.supports file = true := by
    intro file
    constructor
    · exact passes_of_mem_discover returned
    · rintro ⟨below, kept, supported⟩
      exact mem_discover_of_passes returned all below kept supported
  refine ⟨nodup_discover returned, agrees, fun file below => ?_⟩
  rw [below.accepted?]
  refine if_congr ?_ rfl rfl
  rw [agrees file]
  exact (and_iff_right below).symm

private theorem exists_list_eq_ok {shown : String} {here : Location} {searchable : Bool}
    (short : shown.utf8ByteSize < pathLimit)
    (listable : tree.entry? here = some (.directory true searchable)) :
    ∃ members, tree.list shown here = .ok members := by
  refine ⟨tree.children here, ?_⟩
  unfold list
  rw [if_neg (Nat.not_le.mpr short), listable]

/-- A project with a directory that is excluded by its path, a link to a directory and a
link that leads nowhere. -/
def branchedTree : FileTree := .ofEntries
  [(["p"], .directory true true),
   (["p", "src"], .directory true true),
   (["p", "src", "a.js"], .file [] true),
   (["p", "src", "gen"], .directory true true),
   (["p", "src", "gen", "b.js"], .file [] true),
   (["p", "l.js"], .link "src"),
   (["p", "n.js"], .link "none")]

/-- A filter that excludes a directory by two names at once. -/
def branchedFilter : SourceFilter := { excluded := ["src/gen"] }

private theorem discover_branchedTree :
    (branchedTree.discover branchedFilter (Path.ofString "/p")).2 = .ok ["n.js", "src/a.js"] := by
  cbv

private theorem locate_branchedTree :
    branchedTree.locate true (Path.ofString "/p").toString = .ok ["p"] := by
  cbv

private theorem canListBelow_branchedTree : branchedTree.CanListBelow (Path.ofString "/p") := by
  intro start located inner leads
  cases located.symm.trans locate_branchedTree
  have known : inner = [] ∨ inner = ["src"] ∨ inner = ["src", "gen"] := by
    obtain ⟨listable, searchable, present⟩ := leads.isDirectoryAt_append
    unfold entry? at present
    rw [if_neg (by simp), List.lookup_eq_some_iff] at present
    obtain ⟨before, after, whole, -⟩ := present
    have listed : (["p"] ++ inner, .directory listable searchable) ∈ branchedTree.entries := by
      rw [whole]
      simp only [List.cons_append, List.nil_append, List.mem_append, List.mem_cons, true_or,
        or_true]
    simp [branchedTree, ofEntries] at listed
    tauto
  rcases known with rfl | rfl | rfl
  · exact exists_list_eq_ok (by decide +kernel) rfl
  · exact ⟨rfl, exists_list_eq_ok (by decide +kernel) rfl⟩
  · exact ⟨rfl, rfl, exists_list_eq_ok (by decide +kernel) rfl⟩

/-- Discovery and a watcher leave out a directory that is excluded by two names, and take a
link that leads nowhere for a file. -/
theorem branchedTree_agrees :
    let root := Path.ofString "/p"
    let watcher := Watcher.start root branchedFilter
    branchedTree.CanListBelow root ∧
    (branchedTree.discover branchedFilter root).2 = .ok ["n.js", "src/a.js"] ∧
    branchedTree.IsFileBelow root "src/gen/b.js" ∧
    watcher.accepted? (root.join "src/gen/b.js").toString = none ∧
    watcher.accepted? (root.join "n.js").toString = some "n.js" := by
  intro root watcher
  have gen : branchedTree.IsFileBelow root "src/gen/b.js" := by
    refine ⟨["p"], ["src", "gen"], "b.js", locate_branchedTree, ⟨?_, .file [] true, rfl, rfl⟩, ?_⟩
    · exact ⟨⟨true, true, rfl⟩, ⟨true, true, rfl⟩, true, true, rfl⟩
    · decide +kernel
  have link : branchedTree.IsFileBelow root "n.js" := by
    refine ⟨["p"], [], "n.js", locate_branchedTree, ⟨⟨true, true, rfl⟩, .link "none", rfl, ?_⟩, rfl⟩
    cbv
  obtain ⟨-, found⟩ := discover_eq_accepted branchedTree branchedFilter "/p"
  obtain ⟨-, -, accepted⟩ := found _ discover_branchedTree canListBelow_branchedTree
  refine ⟨canListBelow_branchedTree, discover_branchedTree, gen, ?_, ?_⟩
  · rw [accepted _ gen, if_neg (by decide)]
  · rw [accepted _ link, if_pos (by decide)]

/-- The long name is one letter repeated. -/
theorem eq_of_mem_longName {c : Char} (member : c ∈ Build.longName.toList) : c = 'n' := by
  rw [Build.longName, String.toList_ofList] at member
  exact List.eq_of_mem_replicate member

private theorem isProper_longName : Path.IsProper Build.longName := by
  have long : ∀ short : String, short.utf8ByteSize ≤ nameLimit → Build.longName ≠ short := by
    rintro _ bound rfl
    rw [Build.utf8ByteSize_longName] at bound
    exact absurd bound (Nat.not_succ_le_self nameLimit)
  have empty := long "" (by decide)
  have dot := long "." (by decide)
  refine ⟨by simp [Path.isPart, empty, dot], fun slash => ?_⟩
  exact absurd (eq_of_mem_longName slash) (by decide)

/-- Below a root whose name is too long there is nothing, and every directory of the tree can
be listed and searched, but discovery fails. -/
theorem discover_fails_on_long_root :
    let root := Path.ofString ("/" ++ Build.longName)
    (∀ location listable searchable,
      FileTree.empty.entry? location = some (.directory listable searchable) →
      listable = true ∧ searchable = true) ∧
    (∀ file, ¬ FileTree.empty.IsFileBelow root file) ∧
    (FileTree.empty.discover {} root).2 = .error (.file .nameTooLong root.toString) := by
  intro root
  have proper : ∀ part ∈ [Build.longName], Path.IsProper part := by
    simpa only [List.mem_cons, List.not_mem_nil, or_false, forall_eq] using isProper_longName
  have spelled : root = ⟨.slash, [Build.longName], proper⟩ :=
    Path.ofString_toString ⟨.slash, [Build.longName], proper⟩
  have refused : FileTree.empty.Refuses root.toString .nameTooLong := by
    have size := @Path.utf8ByteSize_spell_concat_le (.mk .slash []) rfl Build.longName
    rw [Build.utf8ByteSize_longName] at size
    rw [spelled]
    refine @refuses_of_long_name _ ⟨.slash, [Build.longName], proper⟩ [] _ rfl rfl ?_
      (size.trans_lt (by decide +kernel)) (by decide) ?_
    · intro part member nul
      rw [List.mem_singleton.mp member] at nul
      exact absurd (eq_of_mem_longName nul) (by decide)
    · rw [Build.utf8ByteSize_longName]
      exact Nat.lt_succ_self nameLimit
  refine ⟨fun location listable searchable present => ?_, ?_, discover_of_refuses refused⟩
  · unfold entry? at present
    split at present
    · cases present
      exact ⟨rfl, rfl⟩
    · cases present
  · rintro file ⟨start, inner, name, located, reaches, -⟩
    obtain ⟨listable, searchable, present⟩ := reaches.leads.isDirectoryAt
    cases refused.stat.symm.trans (stat_eq_ok_iff.mpr ⟨start, located, present⟩)

end FileTree

end ModuleAtlas
