import Mathlib.Data.List.Infix
import ModuleAtlas.FileTree.Probe
import ModuleAtlas.Proofs.Path.Spelling

/-! # Where paths lead

An absolute path leads through the names that it is made of
(`ModuleAtlas.FileTree.segments_toString`). As long as these go down through
directories that may be searched, they are followed one by one and nothing else is
asked (`ModuleAtlas.FileTree.locate_of_isOpen`). So an entry that is no link is found
under the path of its location (`ModuleAtlas.FileTree.stat_of_isOpen`).
-/

namespace ModuleAtlas

/-- A file is no link. -/
theorem Entry.file_ne_link (content : List UInt8) (readable : Bool) (target : String) :
    Entry.file content readable ≠ .link target :=
  Entry.noConfusion

/-- A directory is no link. -/
theorem Entry.directory_ne_link (listable searchable : Bool) (target : String) :
    Entry.directory listable searchable ≠ .link target :=
  Entry.noConfusion

namespace FileTree

variable {tree : FileTree} {path : Path} {directory here names rest : Location} {name : String}
  {entry : Entry} {follow : Bool} {links : Nat}

/-- An absolute path leads through its parts. -/
theorem segments_toString (absolute : path.isAbsolute = true) (nonempty : path.parts ≠ []) :
    segments path.toString = path.parts := by
  obtain ⟨front, blank, split⟩ := Path.exists_splitAt_toString absolute nonempty
  have named : ∀ part ∈ path.parts, part ≠ "" := by
    intro part member empty
    have isPart := (path.proper part member).1
    rw [empty] at isPart
    cases isPart
  have names : (Text.splitAt '/' path.toString).filter (· ≠ "") = path.parts := by
    have dropped : front.filter (· ≠ "") = [] :=
      List.filter_eq_nil_iff.mpr fun piece member => by simp [blank piece member]
    have kept : path.parts.filter (· ≠ "") = path.parts :=
      List.filter_eq_self.mpr fun part member => by simpa using named part member
    rw [split, List.filter_append, dropped, kept, List.nil_append]
  have unclosed : Text.endsWith path.toString "/" = false := by
    -- A closing slash would leave an empty piece at the end, but the last piece is a part.
    by_contra closed
    rw [Bool.not_eq_false, Text.endsWith, List.isSuffixOf_iff_suffix] at closed
    obtain ⟨start, spelled⟩ := closed
    have pieces : Text.splitAt '/' path.toString =
        (Text.splitChars '/' start).map String.ofList ++ [""] := by
      have slash : "/".toList = ['/'] := rfl
      rw [Text.splitAt, ← spelled, slash, Text.splitChars_append_cons, List.map_append]
      rfl
    have last : path.parts.getLast? = some "" := by
      have whole := congrArg List.getLast? (split.symm.trans pieces)
      rw [List.getLast?_append_of_ne_nil _ nonempty] at whole
      rw [whole]
      simp
    exact named "" (List.mem_of_getLast? last) rfl
  unfold segments
  rw [names, unclosed]
  rfl

/-- A slash leads to the top of every tree. -/
theorem locate_slash (tree : FileTree) (follow : Bool) : tree.locate follow "/" = .ok [] := by
  have nowhere : segments "/" = [] := by decide +kernel
  have absolute : Text.beginsWith "/" "/" = true := by decide +kernel
  have short : ¬ pathLimit ≤ "/".utf8ByteSize := by decide +kernel
  unfold locate
  rw [if_neg (by decide), if_neg (by decide), if_neg short, nowhere, if_pos absolute, walk]

/-- The top of every tree is a directory. -/
theorem stat_slash (tree : FileTree) : tree.stat "/" = .ok (.directory true true) := by
  unfold stat
  rw [locate_slash]
  rfl

/-- The top of a tree is no regular file. -/
theorem isRegular_slash (tree : FileTree) : tree.isRegular "/" = false := by
  unfold isRegular
  rw [stat_slash]
  rfl

/-- Every directory on the way down to a location, itself included, may be searched. -/
def IsOpen (tree : FileTree) (location : Location) : Prop :=
  ∀ start, start <+: location → ((tree.entry? start).map Entry.isSearchable).getD false = true

instance (tree : FileTree) (location : Location) : Decidable (tree.IsOpen location) :=
  decidable_of_iff
    (∀ start ∈ location.inits, ((tree.entry? start).map Entry.isSearchable).getD false = true)
    (by simp only [List.mem_inits, IsOpen])

/-- The top of a tree is open. -/
theorem isOpen_nil (tree : FileTree) : tree.IsOpen [] := by
  intro start before
  rw [List.prefix_nil.mp before]
  rfl

/-- Every location on the way to an open one is a directory that can be searched. -/
theorem IsOpen.exists_directory {location start : Location} (opened : tree.IsOpen location)
    (above : start <+: location) :
    ∃ listable, tree.entry? start = some (.directory listable true) := by
  have searchable := opened start above
  cases present : tree.entry? start with
  | none =>
      rw [present] at searchable
      cases searchable
  | some entry =>
      rw [present] at searchable
      cases entry with
      | file content readable => cases searchable
      | link target => cases searchable
      | directory listable passable =>
          have isTrue : passable = true := searchable
          exact ⟨listable, by rw [isTrue]⟩

/-- The names on the way to an entry are names of entries. -/
theorem isEntryName_of_entry? {location : Location} (present : tree.entry? location = some entry) :
    ∀ name ∈ location, isEntryName name = true := by
  intro name member
  unfold entry? at present
  rw [if_neg (List.ne_nil_of_mem member)] at present
  have listed : (location, entry) ∈ tree.entries := by
    rw [List.lookup_eq_some_iff] at present
    obtain ⟨before, after, whole, -⟩ := present
    rw [whole]
    simp only [List.mem_append, List.mem_cons, true_or, or_true]
  exact tree.named (location, entry) listed name member

/-- The name of an entry is looked up as it stands. -/
theorem ordinary_of_isEntryName (valid : isEntryName name = true) :
    name ≠ "." ∧ name ≠ ".." ∧ ¬ nameLimit < name.utf8ByteSize := by
  simp only [isEntryName, ne_eq, decide_not, Bool.and_eq_true, Bool.not_eq_true',
    decide_eq_false_iff_not, decide_eq_true_eq] at valid
  obtain ⟨⟨⟨⟨⟨-, undotted⟩, notUp⟩, -⟩, -⟩, short⟩ := valid
  exact ⟨undotted, notUp, Nat.not_lt.mpr short⟩

/-- An entry that is no link is followed by its name. -/
theorem walk_cons_of_entry {listable : Bool}
    (searchable : tree.entry? here = some (.directory listable true))
    (present : tree.entry? (here ++ [name]) = some entry) (solid : ∀ target, entry ≠ .link target) :
    tree.walk follow links here (name :: rest) = tree.walk follow links (here ++ [name]) rest := by
  have valid := isEntryName_of_entry? present name List.mem_concat_self
  obtain ⟨undotted, notUp, short⟩ := ordinary_of_isEntryName valid
  rw [walk, searchable]
  dsimp only
  rw [if_neg (by decide), if_neg undotted, if_neg notUp, if_neg short, present]
  cases entry with
  | file content readable => rfl
  | directory listable passable => rfl
  | link target => exact absurd rfl (solid target)

/-- A name that is too long is refused, whatever stands in the directory. -/
theorem walk_of_long_name {listable : Bool}
    (searchable : tree.entry? here = some (.directory listable true))
    (long : nameLimit < name.utf8ByteSize) :
    tree.walk follow links here (name :: rest) = .error .nameTooLong := by
  have undotted : name ≠ "." := by
    rintro rfl
    exact absurd long (by decide)
  have notUp : name ≠ ".." := by
    rintro rfl
    exact absurd long (by decide)
  rw [walk, searchable]
  dsimp only
  rw [if_neg (by decide), if_neg undotted, if_neg notUp, if_pos long]

/-- A text without slashes leads through one name. -/
theorem segments_of_notMem (clean : '/' ∉ name.toList) (nonempty : name ≠ "") :
    segments name = [name] := by
  have unclosed : Text.endsWith name "/" = false := by
    by_contra closed
    rw [Bool.not_eq_false, Text.endsWith, List.isSuffixOf_iff_suffix] at closed
    exact clean (closed.subset List.mem_cons_self)
  unfold segments
  rw [Text.splitAt_of_notMem clean, unclosed, List.filter_cons_of_pos (by simpa using nonempty)]
  rfl

/-- A link to a name is followed to what stands there under that name. -/
theorem walk_link {listable : Bool} {target : String}
    (searchable : tree.entry? here = some (.directory listable true))
    (present : tree.entry? (here ++ [name]) = some (.link target)) (clean : '/' ∉ target.toList)
    (nonempty : target ≠ "") :
    tree.walk true (links + 1) here [name] = tree.walk true links here [target] := by
  have valid := isEntryName_of_entry? present name List.mem_concat_self
  obtain ⟨undotted, notUp, short⟩ := ordinary_of_isEntryName valid
  have relative : Text.beginsWith target "/" = false := by
    by_contra rooted
    rw [Bool.not_eq_false, Text.beginsWith, List.isPrefixOf_iff_prefix] at rooted
    exact clean (rooted.subset List.mem_cons_self)
  rw [walk, searchable]
  dsimp only
  rw [if_neg (by decide), if_neg undotted, if_neg notUp, if_neg short, present]
  dsimp only
  rw [if_neg (by simp), relative, segments_of_notMem clean nonempty]
  rfl

/-- Names that lead down through directories that may be searched are followed. -/
theorem walk_append_of_isOpen (opened : tree.IsOpen (here ++ names)) :
    tree.walk follow links here (names ++ rest) = tree.walk follow links (here ++ names) rest := by
  induction names generalizing here with
  | nil => rw [List.nil_append, List.append_nil]
  | cons name names ih =>
      have regroup : here ++ name :: names = (here ++ [name]) ++ names := by
        rw [List.append_assoc, List.singleton_append]
      obtain ⟨_, searchable⟩ := opened.exists_directory (List.prefix_append here (name :: names))
      rw [regroup] at opened ⊢
      obtain ⟨_, present⟩ := opened.exists_directory (List.prefix_append (here ++ [name]) names)
      rw [List.cons_append, walk_cons_of_entry searchable present (Entry.directory_ne_link _ _),
        ih opened]

/-- A path that leads down through directories that may be searched is followed from
the last of them. -/
theorem locate_of_isOpen (absolute : path.isAbsolute = true) (nonempty : path.parts ≠ [])
    (plain : ∀ part ∈ path.parts, '\x00' ∉ part.toList)
    (short : path.toString.utf8ByteSize < pathLimit) (parts : path.parts = directory ++ rest)
    (opened : tree.IsOpen directory) :
    tree.locate true path.toString = tree.walk true linkLimit directory rest := by
  have rooted := Path.beginsWith_toString absolute
  have noNul : path.toString.toList.contains '\x00' ≠ true := by
    intro contained
    have member := List.contains_iff_mem.mp contained
    rcases Path.mem_toList_toString absolute member with slash | ⟨part, listed, inside⟩
    · cases slash
    · exact plain part listed inside
  have spelled : path.toString ≠ "" := by
    intro empty
    rw [empty] at rooted
    cases rooted
  unfold locate
  rw [if_neg noNul, if_neg spelled, if_neg (Nat.not_le.mpr short), if_pos rooted,
    segments_toString absolute nonempty, parts]
  exact @walk_append_of_isOpen tree [] directory rest true linkLimit opened

/-- The status of a path is the entry at the location that it leads to. -/
theorem stat_of_locate {written : String} {location : Location}
    (located : tree.locate true written = .ok location)
    (present : tree.entry? location = some entry) : tree.stat written = .ok entry := by
  unfold stat
  rw [located]
  dsimp only [bind, Except.bind]
  rw [present]

/-- An entry that is no link is found under the path of its location, if the
directories on the way may be searched. -/
theorem stat_of_isOpen (absolute : path.isAbsolute = true)
    (short : path.toString.utf8ByteSize < pathLimit) (parts : path.parts = directory ++ [name])
    (opened : tree.IsOpen directory) (present : tree.entry? path.parts = some entry)
    (solid : ∀ target, entry ≠ .link target) : tree.stat path.toString = .ok entry := by
  have valid := isEntryName_of_entry? present
  have nonempty : path.parts ≠ [] := by
    rw [parts]
    simp only [ne_eq, List.append_eq_nil_iff, List.cons_ne_self, and_false, not_false_eq_true]
  have plain : ∀ part ∈ path.parts, '\x00' ∉ part.toList :=
    fun part member => nul_notMem_of_isEntryName (valid part member)
  obtain ⟨_, searchable⟩ := opened.exists_directory List.prefix_rfl
  rw [parts] at present
  refine stat_of_locate ?_ present
  rw [locate_of_isOpen absolute nonempty plain short parts opened,
    walk_cons_of_entry searchable present solid, walk]

/-- A tree of some entries, with the root directory as its working directory. -/
def ofEntries (entries : List (Location × Entry))
    (distinct : (entries.map Prod.fst).Nodup := by decide)
    (named : ∀ entry ∈ entries, ∀ name ∈ entry.1, isEntryName name := by decide) : FileTree where
  entries
  workingDir := []
  writable := true
  distinct
  named

end FileTree

/-- The directory that the projects of the examples stand in. -/
def projectRoot : Path := .mk .slash ["p"]

end ModuleAtlas
