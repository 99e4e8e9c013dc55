import ModuleAtlas.Proofs.Build.Siblings

/-! # The dependencies of a scanned file

The edges of a file are added one reference at a time, and between two of them any
number of other files may be scanned, files that refer back to it among them. Yet
only the frame of a file adds edges that leave it, so at every stage they are those
of the references that the frame has done with (`ModuleAtlas.Build.Records`). What
a file depends on is therefore decided by its text, the tree and the policy
(`ModuleAtlas.Build.dependencies_eq_of_scanned`), and what a build without a depth limit scans
is the closure of its start file under these dependencies
(`ModuleAtlas.Build.scanned_eq_closure`).
-/

namespace ModuleAtlas

/-- The dependencies that references of a file stand for, of those with one target
the first only. -/
def Project.entries (project : Project) (file : String) (references : List String) :
    List (String × Bool) :=
  firstPerTarget (references.filterMap (project.dependency? file))

namespace Project

variable {project : Project} {file reference target : String} {isExternal : Bool}
  {references : List String}

/-- The targets of the entries are those of the references that stand for a dependency. -/
theorem mem_targets_entries :
    target ∈ (project.entries file references).map Prod.fst ↔
      ∃ reference ∈ references, ∃ isExternal,
        project.dependency? file reference = some (target, isExternal) := by
  unfold entries
  rw [mem_targets_firstPerTarget, List.mem_map]
  constructor
  · rintro ⟨⟨_, isExternal⟩, entry, rfl⟩
    obtain ⟨reference, member, found⟩ := List.mem_filterMap.mp entry
    exact ⟨reference, member, isExternal, found⟩
  · rintro ⟨reference, member, isExternal, found⟩
    exact ⟨_, List.mem_filterMap.mpr ⟨reference, member, found⟩, rfl⟩

/-- A reference that stands for no dependency adds no entry. -/
theorem entries_concat_of_none (nothing : project.dependency? file reference = none) :
    project.entries file (references ++ [reference]) = project.entries file references := by
  unfold entries
  rw [List.filterMap_append, List.filterMap_cons_none nothing, List.filterMap_nil, List.append_nil]

/-- One more reference adds the dependency that it stands for, if it is the first
with its target. -/
theorem entries_concat_of_some
    (found : project.dependency? file reference = some (target, isExternal)) :
    project.entries file (references ++ [reference]) =
      if target ∈ (project.entries file references).map Prod.fst then
        project.entries file references
      else project.entries file references ++ [(target, isExternal)] := by
  unfold entries
  rw [List.filterMap_append, List.filterMap_cons_some found, List.filterMap_nil,
    firstPerTarget_concat]
  simp only [mem_targets_firstPerTarget]

/-- More references lose no entry. -/
theorem entries_subset_append (project : Project) (file : String) (front back : List String) :
    project.entries file front ⊆ project.entries file (front ++ back) := by
  induction back using List.reverseRecOn with
  | nil =>
      rw [List.append_nil]
      exact List.Subset.refl _
  | append_singleton back reference ih =>
      rw [← List.append_assoc]
      refine List.Subset.trans ih ?_
      cases found : project.dependency? file reference with
      | none =>
          rw [entries_concat_of_none found]
          exact List.Subset.refl _
      | some entry =>
          rw [entries_concat_of_some found]
          split
          · exact List.Subset.refl _
          · exact List.subset_append_left _ _

/-- The dependencies of a file are those that a reference stands for and no earlier one
has the target of. -/
theorem mem_entries_iff :
    (target, isExternal) ∈ project.entries file references ↔
      ∃ front reference back, references = front ++ reference :: back ∧
        project.dependency? file reference = some (target, isExternal) ∧
          target ∉ (project.entries file front).map Prod.fst := by
  constructor
  · intro entry
    induction references using List.reverseRecOn with
    | nil => cases entry
    | append_singleton done last ih =>
        by_cases old : (target, isExternal) ∈ project.entries file done
        · obtain ⟨front, reference, back, rfl, first⟩ := ih old
          exact ⟨front, reference, back ++ [last], by simp, first⟩
        · cases found : project.dependency? file last with
          | none =>
              rw [entries_concat_of_none found] at entry
              exact absurd entry old
          | some new =>
              rw [entries_concat_of_some found] at entry
              split at entry
              · exact absurd entry old
              · next unlisted =>
                  rcases List.mem_append.mp entry with earlier | added
                  · exact absurd earlier old
                  · cases List.mem_singleton.mp added
                    exact ⟨done, last, [], rfl, found, unlisted⟩
  · rintro ⟨front, reference, back, rfl, found, unlisted⟩
    have rest : front ++ reference :: back = front ++ [reference] ++ back :=
      List.append_cons front reference back
    rw [rest]
    apply entries_subset_append
    rw [entries_concat_of_some found, if_neg unlisted]
    exact List.mem_append_right _ (List.mem_singleton_self _)

end Project

namespace Build

/-- What holds of the edges at every stage of a traversal: they leave scanned files,
and the dependencies of a file are those of all its references, or of the references
that its one frame has done with. -/
structure Records (project : Project) (progress : Progress) (frames : List Frame) : Prop where
  distinct : (frames.map Frame.file).Nodup
  sources : ∀ edge ∈ progress.graph.edges, edge.source ∈ progress.graph.scanned
  suspended : ∀ frame ∈ frames, ∃ done,
    Reference.ofPath project.tree (project.fullPath frame.file) = .ok (done ++ frame.references) ∧
      progress.graph.dependencies frame.file = project.entries frame.file done
  finished : ∀ file ∈ progress.graph.scanned, file ∉ frames.map Frame.file → ∃ references,
    Reference.ofPath project.tree (project.fullPath file) = .ok references ∧
      progress.graph.dependencies file = project.entries file references

section Preservation

variable {task : Task} {points known : List String} {before after : Progress}
  {frames : List Frame} {file reference : String} {depth : Nat}

private theorem Recorded.dependencies_of_ne {target : Option String} {other : String}
    (recorded : Recorded task file reference before after target) (different : other ≠ file) :
    after.graph.dependencies other = before.graph.dependencies other := by
  rcases recorded.cases with ⟨-, same, -⟩ | ⟨id, isExternal, -, added, -⟩
  · rw [same]
  · rw [added, Graph.dependencies_addDependency_of_ne different]

private theorem Recorded.dependencies_self {target : Option String} {done : List String}
    (recorded : Recorded task file reference before after target)
    (sofar : before.graph.dependencies file = task.project.entries file done) :
    after.graph.dependencies file = task.project.entries file (done ++ [reference]) := by
  rcases recorded.cases with ⟨nothing, same, -⟩ | ⟨id, isExternal, entry, added, -⟩
  · rw [same, sofar, Project.entries_concat_of_none nothing]
  · rw [added, Graph.dependencies_addDependency_self, sofar, Project.entries_concat_of_some entry]

/-- A frame without references left has recorded all dependencies of its file. -/
theorem Records.close (records : Records task.project before (⟨file, depth, []⟩ :: frames)) :
    Records task.project before frames := by
  refine ⟨(List.nodup_cons.mp records.distinct).2, records.sources,
    fun frame member => records.suspended frame (List.mem_cons_of_mem _ member), ?_⟩
  intro other scanned unframed
  by_cases same : other = file
  · obtain ⟨done, read, sofar⟩ := records.suspended ⟨file, depth, []⟩ List.mem_cons_self
    rw [List.append_nil] at read
    exact ⟨done, same ▸ read, same ▸ sofar⟩
  · refine records.finished other scanned ?_
    rw [List.map_cons, List.mem_cons]
    exact fun either => either.elim same unframed

/-- Taking up a reference records the dependency that it stands for. -/
theorem Records.record {references : List String} {target : Option String}
    (records : Records task.project before (⟨file, depth, reference :: references⟩ :: frames))
    (scanned : file ∈ before.graph.scanned)
    (recorded : Recorded task file reference before after target) :
    Records task.project after (⟨file, depth, references⟩ :: frames) := by
  have outer := (List.nodup_cons.mp records.distinct).1
  constructor
  case distinct => exact records.distinct
  case sources =>
    intro edge member
    rw [recorded.scanned]
    rcases recorded.mem_edges_cases member with old | ⟨leaves, -⟩
    · exact records.sources edge old
    · rwa [leaves]
  case suspended =>
    intro frame member
    rcases List.mem_cons.mp member with rfl | later
    · obtain ⟨done, read, sofar⟩ :=
        records.suspended ⟨file, depth, reference :: references⟩ List.mem_cons_self
      refine ⟨done ++ [reference], ?_, recorded.dependencies_self sofar⟩
      rw [List.append_assoc]
      exact read
    · -- No other frame is of the same file, so none of the new edges leaves it.
      obtain ⟨done, read, sofar⟩ := records.suspended frame (List.mem_cons_of_mem _ later)
      have different : frame.file ≠ file :=
        fun same => outer (List.mem_map.mpr ⟨frame, later, same⟩)
      exact ⟨done, read, (recorded.dependencies_of_ne different).trans sofar⟩
  case finished =>
    intro other member unframed
    have different : other ≠ file := fun same => unframed (same ▸ List.mem_cons_self)
    rw [recorded.scanned] at member
    rw [recorded.dependencies_of_ne different]
    exact records.finished other member unframed

/-- A file that is opened has no edges yet. -/
theorem Records.open {references : List String} (records : Records task.project before frames)
    (covers : Covers task.project points known before frames)
    (unscanned : file ∉ before.graph.scanned)
    (read : Reference.ofPath task.project.tree (task.project.fullPath file) = .ok references)
    (graph : after.graph = before.graph.addFile file) :
    Records task.project after (⟨file, depth, references⟩ :: frames) := by
  have unframed : file ∉ frames.map Frame.file := by
    intro framed
    obtain ⟨frame, member, rfl⟩ := List.mem_map.mp framed
    exact unscanned (covers.frames frame member)
  have empty : before.graph.dependencies file = [] :=
    Graph.dependencies_eq_nil fun edge member same => unscanned (same ▸ records.sources edge member)
  constructor
  case distinct => exact List.nodup_cons.mpr ⟨unframed, records.distinct⟩
  case sources =>
    rw [graph, Graph.edges_addFile]
    exact fun edge member => Graph.mem_scanned_addFile.mpr (Or.inl (records.sources edge member))
  case suspended =>
    intro frame member
    rw [graph, Graph.dependencies_addFile]
    rcases List.mem_cons.mp member with rfl | outer
    · exact ⟨[], read, empty⟩
    · exact records.suspended frame outer
  case finished =>
    intro other member left
    rw [List.map_cons, List.mem_cons, not_or] at left
    rw [graph, Graph.mem_scanned_addFile] at member
    rw [graph, Graph.dependencies_addFile]
    exact records.finished other (member.resolve_right left.1) left.2

/-- Entering an unscanned file starts its record empty. -/
theorem Records.enter {opened : Option Frame} (records : Records task.project before frames)
    (covers : Covers task.project points known before frames)
    (unscanned : file ∉ before.graph.scanned)
    (entered : Entered task depth file before after opened) :
    Records task.project after (opened.toList ++ frames) := by
  have same : after.graph = before.graph → Records task.project after frames := by
    intro graph
    refine ⟨records.distinct, ?_, ?_, ?_⟩ <;> rw [graph]
    · exact records.sources
    · exact records.suspended
    · exact records.finished
  cases entered with
  | beyond _ graph => exact same graph
  | irregular _ _ graph => exact same graph
  | unreadable _ _ _ graph => exact same graph
  | opened _ _ read graph => exact records.open covers unscanned read graph

/-- Every step keeps the record of the edges. -/
theorem records_step {state next : Progress × List Frame}
    (covers : Covers task.project points known state.1 state.2)
    (records : Records task.project state.1 state.2) (step : Step task points state next) :
    Records task.project next.1 next.2 := by
  cases step with
  | start chosen first entered =>
      rw [← List.append_nil (Option.toList _)]
      exact records.enter covers (covers.notMem_scanned first) entered
  | close => exact records.close
  | pass depth references frames recorded =>
      exact records.record (covers.frames _ List.mem_cons_self) recorded
  | descend references frames recorded fresh entered =>
      have noted := covers.record recorded
      exact (records.record (covers.frames _ List.mem_cons_self) recorded).enter noted
        (noted.notMem_scanned (Or.inl (recorded.fresh ▸ fresh))) entered

private theorem records_steps {state last : Progress × List Frame}
    (covers : Covers task.project points known state.1 state.2)
    (records : Records task.project state.1 state.2) (steps : Steps task points state last) :
    Records task.project last.1 last.2 := by
  induction steps with
  | refl => exact records
  | tail reached step ih => exact records_step (covers_steps covers reached) ih step

/-- An empty graph has no edge to account for. -/
theorem records_start (project : Project) (empty : before.graph = Graph.empty) :
    Records project before [] := by
  refine ⟨List.nodup_nil, ?_, by simp only [List.not_mem_nil, IsEmpty.forall_iff, implies_true], ?_⟩
  · rw [empty]
    exact fun edge member => absurd member List.not_mem_nil
  · rw [empty]
    exact fun other member => absurd member List.not_mem_nil

/-- At the end of a traversal from nothing, the dependencies of a scanned file are
those that the references in its text stand for. -/
theorem exists_dependencies_eq (task : Task) (steps : Steps task points (before, []) (after, []))
    (empty : before.graph = Graph.empty) (unasked : before.operations = [])
    (scanned : file ∈ after.graph.scanned) :
    ∃ text, task.project.tree.readText (task.project.fullPath file) = .ok text ∧
      after.graph.dependencies file = task.project.entries file (Reference.extract text) := by
  have ended := records_steps (covers_start task.project points empty unasked)
    (records_start task.project empty) steps
  obtain ⟨references, read, whole⟩ := ended.finished file scanned List.not_mem_nil
  obtain ⟨text, decoded, rfl⟩ := Project.exists_text_of_ofPath read
  exact ⟨text, decoded, whole⟩

end Preservation

/-- The dependencies of a scanned file when a build ends are those that the
references in its text stand for. -/
theorem exists_dependencies_build {project : Project} {request : BuildRequest} {file : String}
    (scanned : file ∈ (build project request Store.empty).store.graph.scanned) :
    ∃ text, project.tree.readText (project.fullPath file) = .ok text ∧
      (build project request Store.empty).store.graph.dependencies file =
        project.entries file (Reference.extract text) := by
  obtain ⟨first, final, unfolds⟩ := exists_unfolds project request
  rw [unfolds.store] at scanned ⊢
  exact exists_dependencies_eq ⟨project, request.limit⟩ unfolds.steps unfolds.graph
    unfolds.operations scanned

/-- A build from a start file that can be read lists what the references in it stand for. -/
theorem dependencies_of_startPoint? {project : Project} {request : BuildRequest}
    {files : List String} {start point text : String}
    (within : request.limit.isExceededBy 0 = .ok false)
    (discovery : (project.tree.discover request.filter project.root).2 = .ok files)
    (named : request.startFile = some start) (nonempty : start ≠ "")
    (found : startPoint? project start = .ok (some point))
    (read : project.tree.readText (project.fullPath point) = .ok text) :
    (build project request Store.empty).store.graph.dependencies point =
      project.entries point (Reference.extract text) := by
  have scanned := mem_scanned_of_startPoint? within discovery named nonempty found ⟨text, read⟩
  obtain ⟨same, reread, whole⟩ := exists_dependencies_build scanned
  cases read.symm.trans reread
  exact whole

/-- Every edge of a build leaves a scanned file. -/
theorem source_mem_scanned_build {project : Project} {request : BuildRequest} {edge : Edge}
    (member : edge ∈ (build project request Store.empty).store.graph.edges) :
    edge.source ∈ (build project request Store.empty).store.graph.scanned := by
  obtain ⟨first, final, unfolds⟩ := exists_unfolds project request
  have covers := covers_start project (startsFrom project request) unfolds.graph unfolds.operations
  rw [unfolds.store] at member ⊢
  have records : Records (Task.mk project request.limit).project final [] :=
    records_steps covers (records_start project unfolds.graph) unfolds.steps
  exact records.sources edge member

/-- Every edge of a build comes from a reference in the file that it leaves. -/
theorem exists_reference_of_edge {project : Project} {request : BuildRequest} {edge : Edge}
    (member : edge ∈ (build project request Store.empty).store.graph.edges) :
    ∃ text, project.tree.readText (project.fullPath edge.source) = .ok text ∧
      ∃ reference ∈ Reference.extract text,
        project.dependency? edge.source reference = some (edge.target, edge.isExternal) := by
  obtain ⟨text, read, whole⟩ := exists_dependencies_build (source_mem_scanned_build member)
  have listed := Graph.mem_edges_iff_mem_dependencies.mp member
  rw [whole] at listed
  exact ⟨text, read, List.mem_filterMap.mp (mem_of_mem_firstPerTarget listed)⟩

section Spanning

variable {task : Task} {points : List String} {before after : Progress} {file reference : String}

private theorem Entered.isSpanned {depth : Nat} {opened : Option Frame}
    (entered : Entered task depth file before after opened) (spanned : before.graph.IsSpanned) :
    after.graph.IsSpanned := by
  cases entered with
  | beyond _ graph => rwa [graph]
  | irregular _ _ graph => rwa [graph]
  | unreadable _ _ _ graph => rwa [graph]
  | opened _ _ _ graph =>
      rw [graph]
      exact spanned.addFile file

private theorem Recorded.isSpanned {target : Option String}
    (recorded : Recorded task file reference before after target)
    (spanned : before.graph.IsSpanned) : after.graph.IsSpanned := by
  rcases recorded.cases with ⟨-, same, -⟩ | ⟨id, isExternal, -, added, -⟩
  · rwa [same]
  · rw [added]
    exact spanned.addDependency file id isExternal

private theorem isSpanned_step {state next : Progress × List Frame}
    (step : Step task points state next)
    (spanned : state.1.graph.IsSpanned) : next.1.graph.IsSpanned := by
  cases step with
  | start _ _ entered => exact entered.isSpanned spanned
  | close => exact spanned
  | pass _ _ _ recorded => exact recorded.isSpanned spanned
  | descend _ _ recorded _ entered => exact entered.isSpanned (recorded.isSpanned spanned)

private theorem isSpanned_steps {state last : Progress × List Frame}
    (steps : Steps task points state last)
    (spanned : state.1.graph.IsSpanned) : last.1.graph.IsSpanned := by
  induction steps with
  | refl => exact spanned
  | tail _ step ih => exact isSpanned_step step ih

end Spanning

/-- Every node of a build was scanned, or is the target of an edge. -/
theorem mem_nodes_cases {project : Project} {request : BuildRequest} {node : String}
    (member : node ∈ (build project request Store.empty).store.graph.nodes) :
    node ∈ (build project request Store.empty).store.graph.scanned ∨
      ∃ edge ∈ (build project request Store.empty).store.graph.edges, edge.target = node := by
  obtain ⟨first, final, unfolds⟩ := exists_unfolds project request
  have spanned : final.graph.IsSpanned := by
    apply isSpanned_steps unfolds.steps
    rw [unfolds.graph]
    exact Graph.isSpanned_empty
  rw [← unfolds.store] at spanned
  rcases spanned node member with scanned | ⟨edge, present, rfl | rfl⟩
  · exact Or.inl scanned
  · exact Or.inl (source_mem_scanned_build present)
  · exact Or.inr ⟨edge, present, rfl⟩

private theorem exists_dependencies_traverseAll {project : Project} {limit : DepthLimit}
    {known files : List String} {file : String} (scanned : file ∈
      (traverseAll ⟨project, limit⟩ ⟨Graph.empty, known, []⟩ files).1.graph.scanned) :
    ∃ text, project.tree.readText (project.fullPath file) = .ok text ∧
      (traverseAll ⟨project, limit⟩ ⟨Graph.empty, known, []⟩ files).1.graph.dependencies file =
        project.entries file (Reference.extract text) := by
  obtain ⟨final, steps, same, -⟩ := traverseAll_cases ⟨project, limit⟩ files
    (fun _ member => member) (fun _ member => member) ⟨Graph.empty, known, []⟩
  rw [same.graph] at scanned ⊢
  exact exists_dependencies_eq ⟨project, limit⟩ steps rfl rfl scanned

/-- A scanned file depends on what the references in its text stand for, in their
order and of those with one target the first only, whatever was scanned before it:
two builds that scan it agree on its dependencies, and so does a traversal of any
files in any order. -/
theorem dependencies_eq_of_scanned (project : Project) (request : BuildRequest) (file : String)
    (scanned : file ∈ (build project request Store.empty).store.graph.scanned) :
    let dependencies := (build project request Store.empty).store.graph.dependencies file
    (∃ text, project.tree.readText (project.fullPath file) = .ok text ∧
      dependencies =
        firstPerTarget ((Reference.extract text).filterMap (project.dependency? file))) ∧
    (∀ other : BuildRequest, file ∈ (build project other Store.empty).store.graph.scanned →
      (build project other Store.empty).store.graph.dependencies file = dependencies) ∧
    ∀ (limit : DepthLimit) (known files : List String),
      let ended := (traverseAll ⟨project, limit⟩ ⟨Graph.empty, known, []⟩ files).1
      file ∈ ended.graph.scanned → ended.graph.dependencies file = dependencies := by
  intro dependencies
  obtain ⟨text, read, whole⟩ := exists_dependencies_build scanned
  refine ⟨⟨text, read, whole⟩, fun other again => ?_, fun limit known files again => ?_⟩
  · obtain ⟨same, reread, equal⟩ := exists_dependencies_build again
    cases read.symm.trans reread
    exact equal.trans whole.symm
  · obtain ⟨same, reread, equal⟩ := exists_dependencies_traverseAll again
    cases read.symm.trans reread
    exact equal.trans whole.symm

/-- In a loop of two files, the first depends on the second. -/
theorem dependencies_eq_of_scanned_loop :
    let built := build loopProject { startFile := some "a.js" } Store.empty
    "a.js" ∈ built.store.graph.scanned ∧
      built.store.graph.dependencies "a.js" = [("b.js", false)] := by
  intro built
  have scanned : "a.js" ∈ built.store.graph.scanned :=
    mem_scanned_of_startPoint? rfl discover_loopProject rfl (by decide)
      child_loopProject.1.startPoint? ⟨_, readText_loopProject.1⟩
  obtain ⟨⟨text, read, whole⟩, -⟩ := dependencies_eq_of_scanned loopProject _ "a.js" scanned
  cases readText_loopProject.1.symm.trans read
  have extracted : Reference.extract "import './b.js'" = ["./b.js"] := by decide +kernel
  rw [extracted, List.filterMap_cons_some dependency?_loopProject] at whole
  exact ⟨scanned, whole⟩

/-- A build without a depth limit that succeeds scans each of its files once. With
no start file it scans the discovered files that are regular and can be read. From
a start file it scans the least set of files that holds the start file, if it can
be read, and is closed under its internal edges into such discovered files; each
of them is reached from the start file between scanned files. -/
theorem scanned_eq_closure (project : Project) (request : BuildRequest)
    (unlimited : request.limit = .unlimited)
    (succeeded : (build project request Store.empty).failure = none) :
    let built := build project request Store.empty
    let graph := built.store.graph
    let known := discovered project request
    (graph.scanned.Nodup ∧ built.operations.filterMap Operation.addedFile? = graph.scanned) ∧
      (request.startFile.getD "" = "" → ∀ file, file ∈ graph.scanned ↔
        file ∈ known ∧ project.IsRegular file ∧ project.IsReadable file) ∧
      ∀ start point, request.startFile = some start → start ≠ "" →
        startPoint? project start = .ok (some point) →
          (point ∈ graph.scanned ↔ project.IsReadable point) ∧
          (∀ file ∈ graph.scanned, (file = point ∨ file ∈ known) ∧
            Relation.ReflTransGen graph.JoinsScanned point file) ∧
          IsLeast {files | IsClosed project known graph point files}
            {file | file ∈ graph.scanned} := by
  intro built graph known
  obtain ⟨first, final, unfolds⟩ := exists_unfolds project request
  have covers := unfolds.covers
  have store : graph = final.graph := unfolds.store
  have changes : built.operations = final.operations := unfolds.changes
  rw [store]
  refine ⟨⟨final.graph.scanned_nodup, ?_⟩, fun unnamed file => ⟨fun member => ?_, ?_⟩,
    fun start point named nonempty found => ?_⟩
  · rw [changes, covers.added]
  · have origin := covers.origin file member
    rw [startsFrom_of_unnamed unnamed, or_self] at origin
    exact ⟨origin, covers.scannable file member⟩
  · rintro ⟨isKnown, regular, readable⟩
    exact unfolds.mem_scanned unlimited succeeded (startsFrom_of_unnamed unnamed ▸ isKnown) regular
      readable
  · have starts := startsFrom_of_named named nonempty found
    have started : project.IsReadable point → point ∈ final.graph.scanned :=
      unfolds.mem_scanned unlimited succeeded (starts ▸ List.mem_singleton_self point)
        (isRegular_of_startPoint? found)
    refine ⟨⟨fun member => (covers.scannable point member).2, started⟩, fun file member => ?_,
      unfolds.isLeast_scanned unlimited starts started⟩
    obtain ⟨origin, chosen, path⟩ := covers.reached file member
    have listed := covers.origin file member
    rw [starts] at chosen listed
    cases List.mem_singleton.mp chosen
    exact ⟨listed.imp_left List.mem_singleton.mp, path⟩

/-- The start file of the loop is joined to the other, whatever is discovered. -/
theorem hasInternalEdge_loopProject {request : BuildRequest} {files : List String}
    (within : request.limit.isExceededBy 0 = .ok false)
    (discovery : (loopProject.tree.discover request.filter loopProject.root).2 = .ok files)
    (named : request.startFile = some "a.js") :
    (build loopProject request Store.empty).store.graph.HasInternalEdge "a.js" "b.js" := by
  have extracted : Reference.extract "import './b.js'" = ["./b.js"] := by decide +kernel
  rw [Graph.hasInternalEdge_iff_mem_dependencies,
    dependencies_of_startPoint? within discovery named (by decide) child_loopProject.1.startPoint?
      readText_loopProject.1, extracted, Project.entries,
    List.filterMap_cons_some dependency?_loopProject]
  exact List.mem_cons_self

/-- From a file of a loop, a build scans the least closed set of files around it, which has both
files of the loop. -/
theorem scanned_eq_closure_of_loop :
    let request : BuildRequest := { startFile := some "a.js" }
    let built := build loopProject request Store.empty
    (request.limit = .unlimited ∧ built.failure = none ∧
      startPoint? loopProject "a.js" = .ok (some "a.js")) ∧
    ("a.js" ∈ built.store.graph.scanned ∧ "b.js" ∈ built.store.graph.scanned) ∧
    IsLeast {files | IsClosed loopProject (discovered loopProject request) built.store.graph "a.js"
      files} {file | file ∈ built.store.graph.scanned} := by
  intro request built
  have found : startPoint? loopProject "a.js" = .ok (some "a.js") :=
    child_loopProject.1.startPoint?
  have succeeded : built.failure = none :=
    failure_eq_none_of_startPoint? (fun _ => ⟨false, rfl⟩) discover_loopProject rfl (by decide)
      found
  obtain ⟨-, -, fromStart⟩ := scanned_eq_closure loopProject request rfl succeeded
  obtain ⟨started, -, least⟩ := fromStart "a.js" "a.js" rfl (by decide) found
  have first : "a.js" ∈ built.store.graph.scanned := started.mpr ⟨_, readText_loopProject.1⟩
  have listed : "b.js" ∈ discovered loopProject request := by
    rw [discovered_of_ok discover_loopProject]
    decide
  have second : "b.js" ∈ built.store.graph.scanned :=
    least.1.edge "a.js" first "b.js" listed
      (hasInternalEdge_loopProject rfl discover_loopProject rfl) child_loopProject.2.isRegular
      ⟨_, readText_loopProject.2⟩
  exact ⟨⟨rfl, succeeded, found⟩, ⟨first, second⟩, least⟩

end Build

end ModuleAtlas
