import ModuleAtlas.Proofs.Build.Dependencies
import ModuleAtlas.Proofs.Discovery
import ModuleAtlas.Proofs.Resolution

/-! # The targets of internal edges

A reference that is read from the importing file is normalized, and what is written
behind it while it is probed adds no `..` (`ModuleAtlas.Resolution.dots_notMem_path`).
An absolute reference is taken as it is written. So the target of an internal edge is a
normal name unless it is the root itself or comes from an absolute reference that goes
back up on its way, a *detour* (`ModuleAtlas.Project.isNormal_iff_of_dependency?`).

An absolute reference that begins with other slashes than the root is *foreign*: it may lead
to a file below the root, but it is recorded as an external path. A reference that leads to a
file below the root stands for its normal name exactly if it is neither a detour nor foreign
(`ModuleAtlas.Project.dependency?_iff_of_spells`), so where no scanned file has such a
reference, no file has two nodes (`ModuleAtlas.Build.internal_targets_normal`).
-/

namespace ModuleAtlas

namespace Resolution

/-- An absolute reference that goes back up on its way. -/
def IsDetour (reference : String) : Prop :=
  Text.beginsWith reference "/" = true ∧ ".." ∈ Path.partsOf reference

instance (reference : String) : Decidable (IsDetour reference) :=
  inferInstanceAs (Decidable (_ ∧ _))

/-- An absolute reference that begins with other slashes than a root does. -/
def IsForeign (root : Path) (reference : String) : Prop :=
  Text.beginsWith reference "/" = true ∧ (Path.ofString reference).root ≠ root.root

instance (root : Path) (reference : String) : Decidable (IsForeign root reference) :=
  inferInstanceAs (Decidable (_ ∧ _))

end Resolution

namespace Project

variable {project : Project} {file reference target : String} {parts : List String}

/-- An absolute reference to a regular file is taken as it is written: it stands for the
name of the file below the root, or for an external dependency if it lies elsewhere. -/
theorem dependency?_of_beginsWith (file : String)
    (slash : Text.beginsWith reference "/" = true)
    (regular : project.tree.isFile? (Path.ofString reference).toString = .ok true) :
    project.dependency? file reference =
      match (Path.ofString reference).relativeTo? project.root with
      | none => some (reference, true)
      | some parts => some (Path.relativeText parts, false) := by
  obtain ⟨path, isPath⟩ : (Resolution.resolve project.tree (project.fullPath file) reference).path =
      reference ∧ _ := Resolution.path_of_beginsWith slash
  unfold dependency?
  dsimp only
  rw [isPath, path, regular]
  cases (Path.ofString reference).relativeTo? project.root <;> rfl

/-- Below an absolute root every file is spelled with a slash in front. -/
theorem beginsWith_fullPath (absolute : project.root.isAbsolute = true) (file : String) :
    Text.beginsWith (project.fullPath file) "/" = true :=
  Path.beginsWith_toString (Path.isAbsolute_join absolute file)

/-- An external dependency is a path that a reference resolves to, or a reference as a lenient
policy records it. -/
theorem external_cases (entry : project.dependency? file reference = some (target, true)) :
    ((Resolution.resolve project.tree (project.fullPath file) reference).isPath = true ∧
      target = (Resolution.resolve project.tree (project.fullPath file) reference).path) ∨
    project.policy = .lenient ∧ target = reference := by
  unfold dependency? at entry
  dsimp only at entry
  split at entry
  · cases policy : project.policy with
    | strict =>
        rw [policy] at entry
        cases entry
    | lenient =>
        rw [policy] at entry
        cases entry
        exact Or.inr ⟨rfl, rfl⟩
  · next isPath =>
      rw [Bool.not_eq_true', Bool.not_eq_false] at isPath
      split at entry
      · cases entry
        exact Or.inl ⟨isPath, rfl⟩
      · cases entry
        exact Or.inl ⟨isPath, rfl⟩
      · cases entry
      · split at entry
        · next lenient =>
            cases entry
            exact Or.inr ⟨lenient.1, rfl⟩
        · cases entry

/-- A reference stands in the text of a file. -/
def Refers (project : Project) (file reference : String) : Prop :=
  ∃ text, project.tree.readText (project.fullPath file) = .ok text ∧
    reference ∈ Reference.extract text

/-- A reference of a file leads to a file below the root: the path that it resolves to is that of
the file, but for `..` on the way and the slashes that it begins with. -/
def Spells (project : Project) (file reference name : String) : Prop :=
  (Resolution.resolve project.tree (project.fullPath file) reference).isPath = true ∧
    (Path.ofString (Resolution.resolve project.tree (project.fullPath file)
      reference).path).normalize.parts = (project.root.join name).parts

/-- The path that a reference resolves to is written as paths below the root are, unless the
reference is a detour or begins with other slashes. -/
theorem plain_path (absolute : project.root.isAbsolute = true)
    (relative : Text.beginsWith file "/" = false)
    (isPath : (Resolution.resolve project.tree (project.fullPath file) reference).isPath = true)
    (direct : ¬ Resolution.IsDetour reference)
    (native : ¬ Resolution.IsForeign project.root reference) :
    let path := Path.ofString
      (Resolution.resolve project.tree (project.fullPath file) reference).path
    ".." ∉ path.parts ∧ path.root = project.root.root := by
  intro path
  have importing := project.beginsWith_fullPath absolute file
  by_cases isLocal : Resolution.isLocal reference = true
  · refine ⟨Resolution.dots_notMem_path importing isLocal, ?_⟩
    have joined : (project.root.join file).root = project.root.root := by
      rw [← Path.isAbsolute_ofString] at relative
      rw [Path.join, Path.append, relative]
      rfl
    rw [← joined]
    refine (Resolution.root_ofString_path importing isLocal).trans ?_
    rw [fullPath, Path.ofString_toString]
  · have kept : (Resolution.resolve project.tree (project.fullPath file) reference).path =
        reference := if_neg isLocal
    have slash := Resolution.beginsWith_path importing isPath
    rw [kept] at slash
    unfold path
    rw [kept]
    exact ⟨fun dots => direct ⟨slash, dots⟩,
      not_not.mp fun differs => native ⟨slash, differs⟩⟩

/-- A resolved path that lies below a root without `..` holds `..` exactly if the
reference is a detour. -/
theorem Lands.dots_mem_iff (lands : project.Lands file reference target parts)
    (absolute : project.root.isAbsolute = true) (plain : ".." ∉ project.root.parts) :
    ".." ∈ parts ↔ Resolution.IsDetour reference := by
  have whole : Path.partsOf
      (Resolution.resolve project.tree (project.fullPath file) reference).path =
        project.root.parts ++ parts := congrArg Path.parts (Path.eq_of_relativeTo? lands.below)
  have same : ".." ∈ parts ↔ ".." ∈ Path.partsOf
      (Resolution.resolve project.tree (project.fullPath file) reference).path := by
    rw [whole, List.mem_append]
    exact ⟨Or.inr, fun either => either.resolve_left plain⟩
  rw [same]
  by_cases isLocal : Resolution.isLocal reference = true
  · have importing := project.beginsWith_fullPath absolute file
    constructor
    · exact fun dots => absurd dots (Resolution.dots_notMem_path importing isLocal)
    · exact fun detour => absurd detour.1 (Resolution.not_beginsWith_of_isLocal isLocal)
  · have path : (Resolution.resolve project.tree (project.fullPath file) reference).path =
        reference := if_neg isLocal
    have begins : Text.beginsWith reference "/" = true := by
      have isPath := lands.isPath
      unfold Resolution.resolve at isPath
      dsimp only at isPath
      rw [if_neg isLocal] at isPath
      simpa only [ne_eq, not_true_eq_false, decide_false, Bool.false_or] using isPath
    rw [path]
    exact ⟨fun dots => ⟨begins, dots⟩, fun detour => detour.2⟩

/-- The target of an internal dependency is a normal name exactly if the reference is no
detour and does not lead to the root itself. -/
theorem isNormal_iff_of_dependency? (absolute : project.root.isAbsolute = true)
    (plain : ".." ∉ project.root.parts)
    (entry : project.dependency? file reference = some (target, false)) :
    Path.IsNormal target ↔ ¬ Resolution.IsDetour reference ∧ target ≠ "." := by
  obtain ⟨parts, lands⟩ := exists_lands_of_dependency? entry
  have dotted : ¬ Path.IsNormal "." := by decide
  rw [← lands.dots_mem_iff absolute plain]
  by_cases atRoot : parts = []
  · have named : target = "." := by
      rw [lands.named, atRoot]
      rfl
    rw [named]
    exact ⟨fun normal => absurd normal dotted, fun both => absurd rfl both.2⟩
  · have normal : Path.IsNormal target ↔ ".." ∉ parts := by
      rw [lands.named]
      exact Path.isNormal_relativeText_iff atRoot
        (Path.isProper_of_relativeTo? lands.below)
    rw [← normal]
    exact ⟨fun isNormal => ⟨isNormal, fun same => dotted (same ▸ isNormal)⟩, And.left⟩

/-- A reference that leads to a regular file below the root stands for an internal dependency on
it by its normal name, exactly if it is no detour and begins with no other slashes. -/
theorem dependency?_iff_of_spells (absolute : project.root.isAbsolute = true)
    (plain : ".." ∉ project.root.parts) (relative : Text.beginsWith file "/" = false)
    {name : String} (normal : Path.IsNormal name) (regular : project.IsRegular name)
    (spells : project.Spells file reference name) :
    project.dependency? file reference = some (name, false) ↔
      ¬ Resolution.IsDetour reference ∧ ¬ Resolution.IsForeign project.root reference := by
  constructor
  · intro entry
    obtain ⟨direct, -⟩ := (isNormal_iff_of_dependency? absolute plain entry).mp normal
    refine ⟨direct, fun foreign => foreign.2 ?_⟩
    obtain ⟨parts, lands⟩ := exists_lands_of_dependency? entry
    have below := lands.below
    rw [(Resolution.path_of_beginsWith foreign.1).1] at below
    exact (Path.root_and_parts_of_relativeTo? below).1
  · rintro ⟨direct, native⟩
    obtain ⟨level, root⟩ := plain_path absolute relative spells.1 direct native
    have spelled := spells.2
    rw [Path.normalize_of_notMem level, normal.join_eq] at spelled
    have path : Path.ofString
        (Resolution.resolve project.tree (project.fullPath file) reference).path =
          project.root.extend (Text.splitAt '/' name) normal.isProper :=
      Path.eq_of_parts root spelled
    have found : project.tree.isFile?
        (project.root.extend (Text.splitAt '/' name) normal.isProper).toString = .ok true := by
      rw [← normal.join_eq]
      exact regular
    unfold dependency?
    dsimp only
    rw [spells.1, path, found, Path.relativeTo?_extend]
    dsimp only [Bool.not_true]
    rw [if_neg (by decide), Path.relativeText_splitAt]

private theorem ne_dot_of_dependency?
    (notFile : project.tree.isFile? project.root.toString ≠ .ok true)
    (entry : project.dependency? file reference = some (target, false)) : target ≠ "." := by
  rintro rfl
  have regular := isFile?_of_dependency? entry
  have here : project.root.join "." = project.root.extend [] (List.forall_mem_nil _) :=
    Path.join_relativeText project.root (List.forall_mem_nil _)
  rw [fullPath, here, Path.extend_nil] at regular
  exact notFile regular

/-- A dependency that is recorded as an absolute path comes from a reference that leads there. -/
theorem spells_of_external {name : String} (slash : Text.beginsWith target "/" = true)
    (entry : project.dependency? file reference = some (target, true))
    (same : (project.root.join target).normalize.parts = (project.root.join name).parts) :
    project.Spells file reference name := by
  have absolute : project.root.join target = Path.ofString target := by
    rw [← Path.isAbsolute_ofString] at slash
    rw [Path.join, Path.append, slash]
    rfl
  rw [absolute] at same
  rcases external_cases entry with ⟨isPath, rfl⟩ | ⟨-, rfl⟩
  · exact ⟨isPath, same⟩
  · obtain ⟨path, isPath⟩ : (Resolution.resolve project.tree (project.fullPath file) target).path =
        target ∧ _ := Resolution.path_of_beginsWith slash
    rw [← path] at same
    exact ⟨isPath, same⟩

end Project

/-- A node stands for a file of the project: it was scanned, or an internal edge leads
to it. -/
def Graph.IsProjectFile (graph : Graph) (node : String) : Prop :=
  node ∈ graph.scanned ∨ ∃ source, graph.HasInternalEdge source node

namespace Build

/-- However the root is written, the project is scanned from an absolute one. -/
theorem isAbsolute_absoluteRoot (tree : FileTree) (written : Path) :
    (absoluteRoot tree written).isAbsolute = true := by
  unfold absoluteRoot Path.append
  split
  · next rooted => exact rooted
  · rfl

private theorem dots_notMem_absoluteRoot (tree : FileTree) (written : Path) :
    ".." ∉ (absoluteRoot tree written).parts :=
  Path.notMem_parts_normalize (isAbsolute_absoluteRoot tree written)

section Nodes

variable {project : Project} {request : BuildRequest} {source target file : String}

private theorem isNormal_of_startPoint? (absolute : project.root.isAbsolute = true)
    (notFile : project.tree.isFile? project.root.toString ≠ .ok true) {start : String}
    (found : startPoint? project start = .ok (some file)) : Path.IsNormal file := by
  unfold startPoint? at found
  dsimp only at found
  split at found
  · cases found
  · next parts regular below =>
      cases found
      have whole := Path.eq_of_relativeTo? below
      have nonempty : parts ≠ [] := by
        rintro rfl
        rw [whole, Path.extend_nil] at regular
        exact notFile regular
      rw [Path.isNormal_relativeText_iff nonempty (Path.isProper_of_relativeTo? below)]
      intro dots
      apply Path.notMem_parts_normalize (Path.isAbsolute_join absolute start)
      rw [whole, Path.parts_extend]
      exact List.mem_append_right _ dots
  · cases found

/-- Discovered files have normal names. -/
theorem isNormal_of_discovered (listed : file ∈ discovered project request) :
    Path.IsNormal file := by
  obtain ⟨files, found, member⟩ := exists_discover_of_mem listed
  exact (project.tree.sound_discover request.filter project.root).1 files found file member

private theorem isNormal_of_scanned (absolute : project.root.isAbsolute = true)
    (notFile : project.tree.isFile? project.root.toString ≠ .ok true)
    (scanned : file ∈ (build project request Store.empty).store.graph.scanned) :
    Path.IsNormal file := by
  rcases mem_scanned_cases scanned with listed | ⟨start, -, found⟩
  · exact isNormal_of_discovered listed
  · exact isNormal_of_startPoint? absolute notFile found

private theorem beginsWith_of_startPoint? {start : String}
    (found : startPoint? project start = .ok (some file)) : Text.beginsWith file "/" = false := by
  unfold startPoint? at found
  dsimp only at found
  split at found
  · cases found
  · next parts _ below =>
      cases found
      exact Path.beginsWith_relativeText (Path.isProper_of_relativeTo? below)
  · cases found

/-- Scanned files have relative names. -/
theorem beginsWith_of_scanned
    (scanned : file ∈ (build project request Store.empty).store.graph.scanned) :
    Text.beginsWith file "/" = false := by
  rcases mem_scanned_cases scanned with listed | ⟨start, -, found⟩
  · exact (isNormal_of_discovered listed).beginsWith_eq
  · exact beginsWith_of_startPoint? found

/-- An internal edge leaves a scanned file and comes from one of its references. -/
theorem exists_reference_of_internalEdge
    (edge : (build project request Store.empty).store.graph.HasInternalEdge source target) :
    source ∈ (build project request Store.empty).store.graph.scanned ∧
      ∃ reference, project.Refers source reference ∧
        project.dependency? source reference = some (target, false) := by
  unfold Graph.HasInternalEdge at edge
  obtain ⟨text, read, reference, member, entry⟩ := exists_reference_of_edge edge
  exact ⟨source_mem_scanned_build edge, reference, ⟨text, read, member⟩, entry⟩

private theorem isRegular_of_isProjectFile
    (isFile : (build project request Store.empty).store.graph.IsProjectFile file) :
    project.IsRegular file := by
  rcases isFile with scanned | ⟨source, edge⟩
  · obtain ⟨first, final, unfolds⟩ := exists_unfolds project request
    rw [unfolds.store] at scanned
    exact (unfolds.covers.scannable file scanned).1
  · obtain ⟨-, reference, -, entry⟩ := exists_reference_of_internalEdge edge
    exact Project.isFile?_of_dependency? entry

private theorem isNormal_of_isProjectFile (absolute : project.root.isAbsolute = true)
    (plain : ".." ∉ project.root.parts)
    (notFile : project.tree.isFile? project.root.toString ≠ .ok true)
    (direct : ∀ source ∈ (build project request Store.empty).store.graph.scanned,
      ∀ reference, project.Refers source reference → ¬ Resolution.IsDetour reference)
    (isFile : (build project request Store.empty).store.graph.IsProjectFile file) :
    Path.IsNormal file := by
  rcases isFile with scanned | ⟨source, edge⟩
  · exact isNormal_of_scanned absolute notFile scanned
  · obtain ⟨leaves, reference, refers, entry⟩ := exists_reference_of_internalEdge edge
    rw [Project.isNormal_iff_of_dependency? absolute plain entry]
    exact ⟨direct source leaves reference refers, Project.ne_dot_of_dependency? notFile entry⟩

/-- Every node of a build stands for a file of the project, or it is an external dependency that
a reference in a scanned file stands for. -/
theorem isProjectFile_or_external
    (member : file ∈ (build project request Store.empty).store.graph.nodes) :
    (build project request Store.empty).store.graph.IsProjectFile file ∨
      ∃ source ∈ (build project request Store.empty).store.graph.scanned,
        ∃ reference, project.Refers source reference ∧
          project.dependency? source reference = some (file, true) := by
  rcases mem_nodes_cases member with scanned | ⟨⟨source, target, isExternal⟩, present, rfl⟩
  · exact Or.inl (Or.inl scanned)
  · cases isExternal with
    | false => exact Or.inl (Or.inr ⟨source, present⟩)
    | true =>
        obtain ⟨text, read, reference, member, entry⟩ := exists_reference_of_edge present
        exact Or.inr ⟨source, source_mem_scanned_build present, reference, ⟨text, read, member⟩,
          entry⟩

end Nodes

/-- The target of every internal edge is a regular file, and it is a normal name exactly
if the reference that it comes from is no detour and does not lead to the root itself.
However a reference in a scanned file spells the path of a regular file below the root, it
leads to the node of the file's normal name exactly if it is no detour and begins with the
slashes of the root.

Below a root that is no file, where no scanned file has a detour among its references,
every node that stands for a file of the project is a normal name that lies below the
root, and no two of them are spellings of one path. If all absolute references begin with
the slashes of the root too, no node that is an absolute path spells the path of such a file
either. What other nodes there are were recorded by a lenient policy as they stand in a
reference. -/
theorem internal_targets_normal (tree : FileTree) (written : Path) (policy : ExternalPolicy)
    (request : BuildRequest) :
    let project : Project := ⟨tree, absoluteRoot tree written, policy⟩
    let graph := (build project request Store.empty).store.graph
    (∀ source target, graph.HasInternalEdge source target → project.IsRegular target ∧
      ∃ reference, project.Refers source reference ∧
        project.dependency? source reference = some (target, false) ∧
        (Path.IsNormal target ↔ ¬ Resolution.IsDetour reference ∧ target ≠ ".")) ∧
    (∀ source ∈ graph.scanned, ∀ reference name, Path.IsNormal name → project.IsRegular name →
      project.Spells source reference name →
      (project.dependency? source reference = some (name, false) ↔
        ¬ Resolution.IsDetour reference ∧ ¬ Resolution.IsForeign project.root reference)) ∧
    (tree.isFile? project.root.toString ≠ .ok true →
      (∀ source ∈ graph.scanned, ∀ reference, project.Refers source reference →
        ¬ Resolution.IsDetour reference) →
      (∀ node, graph.IsProjectFile node → Path.IsNormal node ∧ project.IsRegular node ∧
        (project.root.join node).normalize.relativeTo? project.root =
          some (Text.splitAt '/' node)) ∧
      (∀ left right, graph.IsProjectFile left → graph.IsProjectFile right →
        (project.root.join left).normalize = (project.root.join right).normalize →
          left = right) ∧
      ((∀ source ∈ graph.scanned, ∀ reference, project.Refers source reference →
          ¬ Resolution.IsForeign project.root reference) →
        ∀ node ∈ graph.nodes, graph.IsProjectFile node ∨ Text.beginsWith node "/" = true →
          ∀ name, Path.IsNormal name → project.IsRegular name →
            (project.root.join node).normalize.parts = (project.root.join name).parts →
              node = name)) ∧
    ∀ node ∈ graph.nodes, graph.IsProjectFile node ∨ Text.beginsWith node "/" = true ∨
      policy = .lenient ∧ ∃ source ∈ graph.scanned, project.Refers source node ∧
        project.dependency? source node = some (node, true) := by
  intro project graph
  have absolute : project.root.isAbsolute = true := isAbsolute_absoluteRoot tree written
  have plain : ".." ∉ project.root.parts := dots_notMem_absoluteRoot tree written
  refine ⟨fun source target edge => ?_, fun source scanned reference name normal regular spells =>
    Project.dependency?_iff_of_spells absolute plain (beginsWith_of_scanned scanned) normal regular
      spells, fun notFile direct => ?_, fun node member => ?_⟩
  · obtain ⟨-, reference, refers, entry⟩ := exists_reference_of_internalEdge edge
    exact ⟨Project.isFile?_of_dependency? entry, reference, refers, entry,
      Project.isNormal_iff_of_dependency? absolute plain entry⟩
  · have normal : ∀ node, graph.IsProjectFile node → Path.IsNormal node := fun node isFile =>
      isNormal_of_isProjectFile absolute plain notFile direct isFile
    refine ⟨fun node isFile => ⟨normal node isFile, isRegular_of_isProjectFile isFile, ?_⟩,
      fun left right isLeft isRight same => ?_,
      fun native node member isPath name isNormal regular same => ?_⟩
    · rw [(normal node isFile).normalize_join plain, (normal node isFile).join_eq]
      exact Path.relativeTo?_extend project.root _
    · exact (normal left isLeft).eq_of_normalize_join_eq (normal right isRight) plain same
    · by_cases isFile : graph.IsProjectFile node
      · rw [(normal node isFile).normalize_join plain] at same
        exact (normal node isFile).eq_of_parts_join_eq isNormal same
      · -- An absolute path that leads to such a file would have been recorded as the file.
        obtain ⟨source, scanned, reference, refers, entry⟩ :=
          (isProjectFile_or_external member).resolve_left isFile
        have spells := Project.spells_of_external (isPath.resolve_left isFile) entry same
        have recorded := (Project.dependency?_iff_of_spells absolute plain
          (beginsWith_of_scanned scanned) isNormal regular spells).mpr
            ⟨direct source scanned reference refers, native source scanned reference refers⟩
        cases entry.symm.trans recorded
  · rcases isProjectFile_or_external member with
      isFile | ⟨source, scanned, reference, refers, entry⟩
    · exact Or.inl isFile
    · rcases Project.external_cases entry with ⟨isPath, rfl⟩ | ⟨lenient, rfl⟩
      · exact Or.inr (Or.inl (Resolution.beginsWith_path
          (project.beginsWith_fullPath absolute source) isPath))
      · exact Or.inr (Or.inr ⟨lenient, source, scanned, refers, entry⟩)

/-- A file that imports one outside the root, by an absolute path that goes through the
root and back. -/
def outsideProject : Project where
  tree := .ofEntries
    [(["p"], .directory true true),
     (["p", "a.js"], .file "import '/p/../o.js'".toUTF8.toList true),
     (["o.js"], .file [] true)]
  root := projectRoot
  policy := .strict

private theorem child_outsideProject :
    outsideProject.Child "a.js" (.file "import '/p/../o.js'".toUTF8.toList true) := by
  have opened : outsideProject.tree.IsOpen ["p"] := by decide
  exact ⟨rfl, opened, rfl, by decide +kernel⟩

private theorem stat_outsideProject :
    outsideProject.tree.stat "/p/../o.js" = .ok (.file [] true) := by
  have outside : (Path.mk .slash ["p", "..", "o.js"]).toString = "/p/../o.js" := by decide +kernel
  have parts : (Path.mk .slash ["p", "..", "o.js"]).parts = ["p"] ++ ["..", "o.js"] := rfl
  have located : outsideProject.tree.locate true "/p/../o.js" = .ok ["o.js"] := by
    rw [← outside, FileTree.locate_of_isOpen rfl (List.cons_ne_nil _ _) (by decide +kernel)
      (by decide +kernel) parts (by decide)]
    cbv
  unfold FileTree.stat
  rw [located]
  rfl

private theorem dependency?_outsideProject :
    outsideProject.dependency? "a.js" "/p/../o.js" = some ("../o.js", false) := by
  have text : (Path.ofString "/p/../o.js").toString = "/p/../o.js" := by decide +kernel
  have regular : outsideProject.tree.isFile? (Path.ofString "/p/../o.js").toString = .ok true := by
    unfold FileTree.isFile? FileTree.probe
    rw [text, stat_outsideProject]
    rfl
  have below : (Path.ofString "/p/../o.js").relativeTo? outsideProject.root =
      some ["..", "o.js"] := by decide +kernel
  rw [Project.dependency?_of_beginsWith "a.js" (by decide +kernel) regular, below]
  rfl

/-- A file outside the root is the target of an internal edge. -/
theorem internal_target_outside_root :
    let graph := (build outsideProject { startFile := some "a.js" } Store.empty).store.graph
    graph.HasInternalEdge "a.js" "../o.js" ∧ ¬ Path.IsNormal "../o.js" ∧
      (outsideProject.root.join "../o.js").normalize.relativeTo? outsideProject.root = none := by
  intro graph
  refine ⟨?_, by decide +kernel, by decide +kernel⟩
  have unbroken : Text.withLineFeeds "import '/p/../o.js'" = "import '/p/../o.js'" := by cbv
  have read := child_outsideProject.readText (Text.Utf8.decode_toUTF8 _)
  rw [unbroken] at read
  have extracted : Reference.extract "import '/p/../o.js'" = ["/p/../o.js"] := by decide +kernel
  have discovery : (outsideProject.tree.discover {} outsideProject.root).2 = .ok ["a.js"] := by cbv
  have whole : graph.dependencies "a.js" = _ := dependencies_of_startPoint? rfl discovery rfl
    (by decide) child_outsideProject.startPoint? read
  rw [Graph.hasInternalEdge_iff_mem_dependencies, whole, extracted, Project.entries,
    List.filterMap_cons_some dependency?_outsideProject]
  exact List.mem_cons_self

end Build

end ModuleAtlas
