import Mathlib.Data.List.Basic
import ModuleAtlas.Proofs.FileTree.Reach
import ModuleAtlas.Proofs.Path.Reduction
import ModuleAtlas.Resolution

/-! # Where references lead

A reference that is read from the importing file leads to a path below the root directory: the
pieces of the importing directory and of the reference are reduced to names
(`ModuleAtlas.Resolution.isReduced_basePath`), and what is written behind these while the path
is probed keeps it a path of names (`ModuleAtlas.Resolution.exists_below_of_mem_alternatives`).
It begins with a slash, so it counts as a path without a look at the reference. Every other
reference stays as it is (`ModuleAtlas.Resolution.resolve_reads_or_keeps`).
-/

namespace ModuleAtlas

namespace Text

private theorem join_concat (separator : String) {texts : List String} (nonempty : texts ≠ [])
    (last : String) :
    join separator (texts ++ [last]) = join separator texts ++ (separator ++ last) := by
  induction texts with
  | nil => exact absurd rfl nonempty
  | cons first rest ih =>
      cases rest with
      | nil => simp only [List.cons_append, List.nil_append, join, String.append_assoc]
      | cons second rest =>
          have later := ih (List.cons_ne_nil second rest)
          simp only [List.cons_append] at later ⊢
          rw [join, join, later]
          simp only [String.append_assoc]

private theorem beginsWith_append {s head : String} (begins : beginsWith s head = true)
    (tail : String) : beginsWith (s ++ tail) head = true := by
  unfold beginsWith at begins ⊢
  rw [List.isPrefixOf_iff_prefix] at begins ⊢
  rw [String.toList_append]
  exact begins.trans (List.prefix_append s.toList tail.toList)

end Text

namespace Path

/-- A part that leads down and holds no slash. -/
structure IsName (part : String) : Prop where
  plain : IsPlain part
  whole : '/' ∉ part.toList

private theorem IsName.isProper {part : String} (name : IsName part) : IsProper part :=
  ⟨(isPlain_iff.mp name.plain).1, name.whole⟩

private theorem isPlain_of_mem {text : String} (letter : 's' ∈ text.toList) : IsPlain text := by
  refine ⟨?_, ?_, ?_⟩ <;> rintro rfl <;> simp at letter

/-- The text of the path with some parts below the root directory. -/
def below (parts : List String) : String := "/" ++ Text.join "/" parts

/-- The root directory, or a normal name below it. -/
def IsNormalBelowRoot (text : String) : Prop :=
  text = "/" ∨ ∃ name, text = "/" ++ name ∧ IsNormal name

private theorem IsNormalBelowRoot.beginsWith {text : String} (normal : IsNormalBelowRoot text) :
    Text.beginsWith text "/" = true := by
  rcases normal with rfl | ⟨name, rfl, -⟩
  · rfl
  · simp [Text.beginsWith]

section Below

variable {parts : List String}

private theorem isNormalBelowRoot_below (names : ∀ part ∈ parts, IsName part) :
    IsNormalBelowRoot (below parts) := by
  by_cases empty : parts = []
  · rw [empty]
    exact Or.inl rfl
  · refine Or.inr ⟨_, rfl, ?_⟩
    unfold IsNormal
    rw [Text.splitAt_join empty fun part member => (names part member).whole]
    exact fun part member => (names part member).plain

/-- The last part is written behind a slash. -/
theorem exists_below_concat (front : List String) :
    ∃ start, ∀ last, below (front ++ [last]) = start ++ ("/" ++ last) := by
  by_cases empty : front = []
  · rw [empty]
    exact ⟨"", fun last => by simp only [below, List.nil_append, Text.join, String.empty_append]⟩
  · refine ⟨below front, fun last => ?_⟩
    rw [below, below, Text.join_concat "/" empty, String.append_assoc]

private theorem below_concat_append (front : List String) (last tail : String) :
    below (front ++ [last]) ++ tail = below (front ++ [last ++ tail]) := by
  obtain ⟨start, written⟩ := exists_below_concat front
  rw [written, written, String.append_assoc, String.append_assoc]

private theorem endsWith_below_concat {last : String} (proper : IsProper last)
    (front : List String) :
    Text.endsWith (below (front ++ [last])) "/" = false := by
  obtain ⟨start, written⟩ := exists_below_concat front
  have spelled : (below (front ++ [last])).toList = start.toList ++ '/' :: last.toList := by
    rw [written]
    simp
  have nonempty : last.toList ≠ [] := by
    intro none
    have blank : last = "" := String.toList_inj.mp none
    exact absurd proper.1 (by simp [blank, isPart])
  rw [← Bool.not_eq_true, Text.endsWith, List.isSuffixOf_iff_suffix, spelled]
  rintro ⟨before, same⟩
  have ends : some '/' = last.toList.getLast? := by
    have lasts := congrArg List.getLast? same
    rwa [List.getLast?_append_of_ne_nil _ (by simp), List.getLast?_append_of_ne_nil _ (by simp),
      List.getLast?_cons_of_ne_nil nonempty] at lasts
  exact proper.2 (List.mem_of_getLast? ends.symm)

private theorem joinText_below (proper : ∀ part ∈ parts, IsProper part) (name : String) :
    joinText (below parts) name = below (parts ++ [name]) := by
  rcases List.eq_nil_or_concat' parts with rfl | ⟨front, last, rfl⟩
  · rfl
  · have unslashed := endsWith_below_concat (proper last List.mem_concat_self) front
    rw [joinText, unslashed, below, below, Text.join_concat "/" (List.concat_ne_nil _ _) name]
    simp only [Bool.false_eq_true, ↓reduceIte, String.append_assoc]

end Below

end Path

namespace Resolution

private theorem dots_notMem_candidates {base candidate : String} (plain : ".." ∉ Path.partsOf base)
    (member : candidate ∈ candidates base) : ".." ∉ Path.partsOf candidate := by
  have extensions : ∀ extension ∈ impliedExtensions,
      '/' ∉ extension.toList ∧ 's' ∈ extension.toList := by decide
  unfold candidates at member
  rcases List.mem_append.mp member with first | index
  · rcases List.mem_cons.mp first with rfl | extended
    · exact plain
    · obtain ⟨extension, listed, rfl⟩ := List.mem_map.mp extended
      obtain ⟨clean, named⟩ := extensions extension listed
      exact Path.dots_notMem_partsOf_append plain clean ⟨'s', named, by decide⟩
  · obtain ⟨extension, listed, rfl⟩ := List.mem_map.mp index
    obtain ⟨clean, named⟩ := extensions extension listed
    have spelled : ("index" ++ extension).toList = "index".toList ++ extension.toList :=
      String.toList_append
    apply Path.dots_notMem_partsOf_joinText plain
    · rw [spelled, List.mem_append, not_or]
      exact ⟨by decide, clean⟩
    · exact ⟨'s', spelled ▸ List.mem_append_right _ named, by decide⟩

private theorem probe_mem_candidates (tree : FileTree) (base : String) :
    probe tree base ∈ candidates base := by
  unfold probe
  cases found : (candidates base).find? tree.isRegular with
  | none => exact List.mem_cons_self
  | some candidate => exact List.mem_of_find?_eq_some found

private theorem beginsWith_candidates {base candidate : String}
    (absolute : Text.beginsWith base "/" = true) (member : candidate ∈ candidates base) :
    Text.beginsWith candidate "/" = true := by
  unfold candidates at member
  rcases List.mem_append.mp member with first | index
  · rcases List.mem_cons.mp first with rfl | extended
    · exact absolute
    · obtain ⟨extension, -, rfl⟩ := List.mem_map.mp extended
      exact Text.beginsWith_append absolute extension
  · obtain ⟨extension, -, rfl⟩ := List.mem_map.mp index
    unfold Path.joinText
    split
    · exact Text.beginsWith_append absolute _
    · exact Text.beginsWith_append (Text.beginsWith_append absolute _) _

/-- The candidates for an absolute path begin with its slashes. -/
theorem root_ofString_of_mem_candidates {path : Path} (absolute : path.isAbsolute = true)
    {candidate : String} (member : candidate ∈ candidates path.toString) :
    (Path.ofString candidate).root = path.root := by
  have extensions : ∀ extension ∈ impliedExtensions,
      Path.rootOf extension.toList = .relative ∧
        Path.rootOf ("index" ++ extension).toList = .relative := by decide
  unfold candidates at member
  rcases List.mem_append.mp member with first | index
  · rcases List.mem_cons.mp first with rfl | extended
    · rw [Path.ofString_toString]
    · obtain ⟨extension, listed, rfl⟩ := List.mem_map.mp extended
      exact Path.root_ofString_append absolute (Or.inr (extensions extension listed).1)
  · obtain ⟨extension, listed, rfl⟩ := List.mem_map.mp index
    exact Path.root_ofString_joinText absolute (extensions extension listed).2

private theorem isAbsolute_basePath {importing : String}
    (absolute : Text.beginsWith importing "/" = true) (reference : String) :
    (basePath importing reference).isAbsolute = true := by
  rw [← Path.isAbsolute_ofString] at absolute
  exact absolute

/-- A reference that is read from a file with an absolute path leads to a path
without `..`. -/
theorem dots_notMem_path {tree : FileTree} {importing reference : String}
    (absolute : Text.beginsWith importing "/" = true) (isLocal : isLocal reference = true) :
    ".." ∉ Path.partsOf (resolve tree importing reference).path := by
  have rooted := isAbsolute_basePath absolute reference
  have path : (resolve tree importing reference).path =
      probe tree (basePath importing reference).toString := if_pos isLocal
  have plain : ".." ∉ Path.partsOf (basePath importing reference).toString := by
    rw [Path.partsOf_toString]
    exact Path.notMem_parts_normalize rooted
  rw [path]
  exact dots_notMem_candidates plain (probe_mem_candidates tree _)

/-- From a file with an absolute path, a reference that leads to a path at all leads to
an absolute one. -/
theorem beginsWith_path {tree : FileTree} {importing reference : String}
    (absolute : Text.beginsWith importing "/" = true)
    (isPath : (resolve tree importing reference).isPath = true) :
    Text.beginsWith (resolve tree importing reference).path "/" = true := by
  by_cases isLocal : isLocal reference = true
  · have path : (resolve tree importing reference).path =
        probe tree (basePath importing reference).toString := if_pos isLocal
    rw [path]
    exact beginsWith_candidates (Path.beginsWith_toString (isAbsolute_basePath absolute reference))
      (probe_mem_candidates tree _)
  · unfold resolve at isPath ⊢
    dsimp only at isPath ⊢
    rw [if_neg isLocal] at isPath ⊢
    simpa only [ne_eq, not_true_eq_false, decide_false, Bool.false_or] using isPath

/-- A reference that is read from a file with an absolute path leads to one that begins with the
same slashes. -/
theorem root_ofString_path {tree : FileTree} {importing reference : String}
    (absolute : Text.beginsWith importing "/" = true) (isLocal : isLocal reference = true) :
    (Path.ofString (resolve tree importing reference).path).root =
      (Path.ofString importing).root := by
  have path : (resolve tree importing reference).path =
      probe tree (basePath importing reference).toString := if_pos isLocal
  rw [path, root_ofString_of_mem_candidates (isAbsolute_basePath absolute reference)
    (probe_mem_candidates tree _)]
  rfl

/-- A local reference begins with a dot, so not with a slash. -/
theorem not_beginsWith_of_isLocal {reference : String} (isLocal : isLocal reference = true) :
    Text.beginsWith reference "/" ≠ true := by
  intro slash
  have dot : Text.beginsWith reference "." = false := by
    have slashes : "/".toList = ['/'] := rfl
    have dots : ".".toList = ['.'] := rfl
    unfold Text.beginsWith at slash ⊢
    rw [slashes] at slash
    rw [dots]
    cases chars : reference.toList with
    | nil => rfl
    | cons c rest =>
        rw [chars, List.isPrefixOf, Bool.and_eq_true, beq_iff_eq] at slash
        rw [← slash.1]
        rfl
  unfold Resolution.isLocal at isLocal
  rw [dot, slash] at isLocal
  simp at isLocal

/-- The pieces between the slashes of the directory of a file, and then those of a reference. -/
def piecesFrom (importing reference : String) : List String :=
  (Text.splitAt '/' importing).dropLast ++ Text.splitAt '/' reference

/-- What a path below the root directory may stand for, in the order of preference: the file
itself, the file with an extension, or an index file in it. -/
def alternatives (parts : List String) : List String :=
  Path.below parts :: [".js", ".ts", ".jsx", ".tsx"].map (Path.below parts ++ ·) ++
    ["index.js", "index.ts", "index.jsx", "index.tsx"].map fun name => Path.below (parts ++ [name])

/-- A text is the first of some texts to name a regular file, or none does and it is the one to
fall back to. -/
def IsFirstFile (tree : FileTree) (texts : List String) (fallback text : String) : Prop :=
  (∃ before after, texts = before ++ text :: after ∧ tree.isRegular text = true ∧
    ∀ other ∈ before, tree.isRegular other = false) ∨
  (∀ other ∈ texts, tree.isRegular other = false) ∧ text = fallback

/-- A reference that is read from the importing file: it starts with a dot, or it has a slash,
starts neither with a slash nor with a scope, and its first piece is not the package directory. -/
def IsRead (reference : String) : Prop :=
  Text.beginsWith reference "." = true ∨
    '/' ∈ reference.toList ∧ Text.beginsWith reference "@" = false ∧
      Text.beginsWith reference "/" = false ∧
      (Text.splitAt '/' reference).head? ≠ some "node_modules"

section Base

variable {importing reference : String}

private theorem isLocal_iff : isLocal reference = true ↔ IsRead reference := by
  unfold isLocal IsRead
  simp only [Bool.or_eq_true, Bool.and_eq_true, Bool.not_eq_true', List.contains_iff_mem,
    decide_eq_true_eq]
  refine or_congr_right ⟨?_, ?_⟩
  · rintro ⟨⟨⟨scopeless, relative⟩, slash⟩, outside⟩
    exact ⟨slash, scopeless, relative, outside⟩
  · rintro ⟨slash, scopeless, relative, outside⟩
    exact ⟨⟨⟨scopeless, relative⟩, slash⟩, outside⟩

private theorem rootOf_of_single (absolute : Text.beginsWith importing "/" = true)
    (single : Text.beginsWith importing "//" = false) : Path.rootOf importing.toList = .slash := by
  have slash : "/".toList = ['/'] := rfl
  have slashes : "//".toList = ['/', '/'] := rfl
  rw [Text.beginsWith, slash, List.isPrefixOf_iff_prefix] at absolute
  rw [Text.beginsWith, slashes, ← Bool.not_eq_true, List.isPrefixOf_iff_prefix] at single
  obtain ⟨rest, spelled⟩ := absolute
  rw [← spelled] at single ⊢
  clear spelled
  have relative : Path.rootOf rest = .relative := by
    unfold Path.rootOf
    split <;> simp_all
  exact (Path.rootOf_cons_of_relative relative).1

/-- A reference read from a file leads to the names that its pieces reduce to. -/
theorem isReduced_basePath (absolute : Text.beginsWith importing "/" = true) (reference : String) :
    Path.IsReduced (piecesFrom importing reference) (basePath importing reference).parts := by
  have rooted : ((Path.directoryOf importing).extend (Path.partsOf reference) fun _ =>
      Path.isProper_of_mem_partsOf).isAbsolute = true := isAbsolute_basePath absolute reference
  have passed : (basePath importing reference).parts =
      (Path.passAll [] (piecesFrom importing reference)).reverse := by
    unfold basePath
    rw [Path.parts_normalize, rooted, Path.cancel_eq_foldl, Path.passAll, piecesFrom,
      List.filter_append]
    rfl
  exact Path.isReduced_iff.mpr passed

private theorem isName_of_mem_basePath (absolute : Text.beginsWith importing "/" = true) :
    ∀ part ∈ (basePath importing reference).parts, Path.IsName part :=
  fun part member => ⟨(isReduced_basePath absolute reference).plain part member,
    ((basePath importing reference).proper part member).2⟩

private theorem toString_basePath (absolute : Text.beginsWith importing "/" = true)
    (single : Text.beginsWith importing "//" = false) (reference : String) :
    (basePath importing reference).toString =
      Path.below (basePath importing reference).parts := by
  have root : (basePath importing reference).root = .slash := rootOf_of_single absolute single
  rw [Path.toString, root]
  rfl

end Base

section Alternatives

variable {parts : List String} {text : String}

private theorem candidates_below (proper : ∀ part ∈ parts, Path.IsProper part) :
    candidates (Path.below parts) = alternatives parts := by
  unfold candidates alternatives
  simp only [Path.joinText_below proper]
  rfl

/-- What is tried for a path of names is a path of names. -/
theorem exists_below_of_mem_alternatives (names : ∀ part ∈ parts, Path.IsName part)
    (member : text ∈ alternatives parts) :
    ∃ others, text = Path.below others ∧ ∀ part ∈ others, Path.IsName part := by
  have extended : ∀ part ∈ [".js", ".ts", ".jsx", ".tsx"],
      's' ∈ part.toList ∧ '/' ∉ part.toList := by decide
  have indexed : ∀ part ∈ ["index.js", "index.ts", "index.jsx", "index.tsx"],
      's' ∈ part.toList ∧ '/' ∉ part.toList := by decide
  unfold alternatives at member
  rcases List.mem_append.mp member with first | index
  · rcases List.mem_cons.mp first with rfl | later
    · exact ⟨parts, rfl, names⟩
    · obtain ⟨extension, listed, rfl⟩ := List.mem_map.mp later
      obtain ⟨letter, clean⟩ := extended extension listed
      rcases List.eq_nil_or_concat' parts with rfl | ⟨front, last, rfl⟩
      · exact ⟨[extension], rfl, List.forall_mem_singleton.mpr ⟨Path.isPlain_of_mem letter, clean⟩⟩
      · obtain ⟨others, lasts⟩ := List.forall_mem_append.mp names
        refine ⟨front ++ [last ++ extension], Path.below_concat_append front last extension,
          List.forall_mem_append.mpr ⟨others, List.forall_mem_singleton.mpr ⟨?_, ?_⟩⟩⟩
        · apply Path.isPlain_of_mem
          rw [String.toList_append]
          exact List.mem_append_right _ letter
        · rw [String.toList_append, List.mem_append, not_or]
          exact ⟨(lasts last (List.mem_singleton_self last)).whole, clean⟩
  · obtain ⟨name, listed, rfl⟩ := List.mem_map.mp index
    obtain ⟨letter, clean⟩ := indexed name listed
    refine ⟨parts ++ [name], rfl, List.forall_mem_append.mpr ⟨names, ?_⟩⟩
    exact List.forall_mem_singleton.mpr ⟨Path.isPlain_of_mem letter, clean⟩

private theorem isFirstFile_probe (tree : FileTree) (base : String) :
    IsFirstFile tree (candidates base) base (probe tree base) := by
  unfold probe
  cases found : (candidates base).find? tree.isRegular with
  | none =>
      refine Or.inr ⟨fun other member => ?_, rfl⟩
      exact Bool.not_eq_true _ ▸ List.find?_eq_none.mp found other member
  | some candidate =>
      obtain ⟨regular, before, after, split, earlier⟩ := List.find?_eq_some_iff_append.mp found
      refine Or.inl ⟨before, after, split, regular, fun other member => ?_⟩
      simpa only [Bool.not_eq_eq_eq_not, Bool.not_true] using earlier other member

end Alternatives

/-- What comes back is a path if it is not the reference, or if it is absolute. -/
theorem isPath_eq (tree : FileTree) (importing reference : String) :
    (resolve tree importing reference).isPath =
      (decide ((resolve tree importing reference).path ≠ reference) ||
        Text.beginsWith (resolve tree importing reference).path "/") := rfl

/-- An absolute reference comes back as the path that it is. -/
theorem path_of_beginsWith {tree : FileTree} {importing reference : String}
    (slash : Text.beginsWith reference "/" = true) :
    (resolve tree importing reference).path = reference ∧
      (resolve tree importing reference).isPath = true := by
  have elsewhere : ¬ isLocal reference = true := fun isLocal =>
    not_beginsWith_of_isLocal isLocal slash
  have path : (resolve tree importing reference).path = reference := if_neg elsewhere
  refine ⟨path, ?_⟩
  rw [isPath_eq, path, slash, Bool.or_true]

/-- A reference that is read from a file leads to a path: its pieces behind those of the importing
directory reduce to names, however the rules are applied, and the result is the first regular file
among the alternatives for these names, or the path of the names itself. The result is the root
directory or a normal name below it. Every other reference stays as it is, and it is a path exactly
if it begins with a slash. -/
theorem resolve_reads_or_keeps (tree : FileTree) (importing reference : String)
    (absolute : Text.beginsWith importing "/" = true)
    (single : Text.beginsWith importing "//" = false) :
    (IsRead reference →
      (resolve tree importing reference).isPath = true ∧
      (∃ parts, (∀ others, Path.IsReduced (piecesFrom importing reference) others ↔
          others = parts) ∧
        IsFirstFile tree (alternatives parts) (Path.below parts)
          (resolve tree importing reference).path) ∧
      Path.IsNormalBelowRoot (resolve tree importing reference).path) ∧
    (¬ IsRead reference →
      (resolve tree importing reference).path = reference ∧
      ((resolve tree importing reference).isPath = true ↔
        Text.beginsWith reference "/" = true)) := by
  have names := @isName_of_mem_basePath importing reference absolute
  have spelled := toString_basePath absolute single reference
  refine ⟨fun isRead => ?_, fun isKept => ?_⟩
  · have path : (resolve tree importing reference).path =
        probe tree (Path.below (basePath importing reference).parts) := by
      rw [← spelled]
      exact if_pos (isLocal_iff.mpr isRead)
    have first := isFirstFile_probe tree (Path.below (basePath importing reference).parts)
    have tried := probe_mem_candidates tree (Path.below (basePath importing reference).parts)
    rw [candidates_below fun part member => (names part member).isProper, ← path] at first tried
    have normal : Path.IsNormalBelowRoot (resolve tree importing reference).path := by
      obtain ⟨others, same, named⟩ := exists_below_of_mem_alternatives names tried
      exact same ▸ Path.isNormalBelowRoot_below named
    refine ⟨?_, ⟨_, fun others => ?_, first⟩, normal⟩
    · rw [isPath_eq, normal.beginsWith, Bool.or_true]
    · rw [Path.isReduced_iff, ← Path.isReduced_iff.mp (isReduced_basePath absolute reference)]
  · have path : (resolve tree importing reference).path = reference :=
      if_neg (mt isLocal_iff.mp isKept)
    rw [isPath_eq, path]
    simp only [ne_eq, not_true_eq_false, decide_false, Bool.false_or, and_self]

/-- A directory and a script next to it, which would have its name but for the extension. -/
def twinTree : FileTree := .ofEntries
  [(["p"], .directory true true), (["p", "b"], .directory true true),
   (["p", "b.js"], .file [] true)]

/-- The directory is no regular file, the script is. -/
theorem isRegular_twinTree :
    twinTree.isRegular "/p/b" = false ∧ twinTree.isRegular "/p/b.js" = true := by
  have opened : twinTree.IsOpen ["p"] := by decide
  have directory : twinTree.stat (Path.mk .slash ["p", "b"]).toString =
      .ok (.directory true true) :=
    FileTree.stat_of_isOpen rfl (by decide +kernel) rfl opened rfl (Entry.directory_ne_link _ _)
  have script : twinTree.stat (Path.mk .slash ["p", "b.js"]).toString = .ok (.file [] true) :=
    FileTree.stat_of_isOpen rfl (by decide +kernel) rfl opened rfl (Entry.file_ne_link _ _)
  have spelled : (Path.mk .slash ["p", "b"]).toString = "/p/b" ∧
      (Path.mk .slash ["p", "b.js"]).toString = "/p/b.js" := by decide +kernel
  rw [spelled.1] at directory
  rw [spelled.2] at script
  rw [FileTree.isRegular, FileTree.isRegular, directory, script]
  exact ⟨rfl, rfl⟩

/-- A reference goes down and up again to a directory, and the script next to it is found. -/
theorem resolve_reads_past_directory :
    Text.beginsWith "/p/app.js" "/" = true ∧ Text.beginsWith "/p/app.js" "//" = false ∧
      IsRead "./a/.././b" ∧ (resolve twinTree "/p/app.js" "./a/.././b").isPath = true ∧
      (resolve twinTree "/p/app.js" "./a/.././b").path = "/p/b.js" := by
  have absolute : Text.beginsWith "/p/app.js" "/" = true := by decide +kernel
  have single : Text.beginsWith "/p/app.js" "//" = false := by decide +kernel
  have isRead : IsRead "./a/.././b" := Or.inl (by decide +kernel)
  obtain ⟨isPath, ⟨parts, unique, first⟩, -⟩ :=
    (resolve_reads_or_keeps twinTree "/p/app.js" "./a/.././b" absolute single).1 isRead
  have reduced : ["p", "b"] = parts := (unique _).mp (Path.isReduced_iff.mpr (by decide +kernel))
  subst reduced
  refine ⟨absolute, single, isRead, isPath, ?_⟩
  obtain ⟨isDirectory, isScript⟩ := isRegular_twinTree
  have listed : ∃ rest, alternatives ["p", "b"] = "/p/b" :: "/p/b.js" :: rest :=
    ⟨["/p/b.ts", "/p/b.jsx", "/p/b.tsx", "/p/b/index.js", "/p/b/index.ts", "/p/b/index.jsx",
      "/p/b/index.tsx"], by decide +kernel⟩
  obtain ⟨rest, listed⟩ := listed
  rw [listed] at first
  rcases first with ⟨before, after, split, regular, earlier⟩ | ⟨none, -⟩
  · match before with
    | [] =>
        rw [← (List.cons.inj split).1, isDirectory] at regular
        cases regular
    | [_] => exact (List.cons.inj (List.cons.inj split).2).1.symm
    | _ :: second :: before =>
        have isSecond : "/p/b.js" = second := (List.cons.inj (List.cons.inj split).2).1
        have irregular := earlier second (by simp only [List.mem_cons, true_or, or_true])
        rw [← isSecond, isScript] at irregular
        cases irregular
  · have irregular := none "/p/b.js" (by simp)
    rw [isScript] at irregular
    cases irregular

end Resolution

end ModuleAtlas
