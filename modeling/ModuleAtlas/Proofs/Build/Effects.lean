import ModuleAtlas.Build
import ModuleAtlas.Proofs.Build.Verdict
import ModuleAtlas.Proofs.Graph.Edges

/-! # What the two moves of a traversal do

A traversal looks at references and enters files. Looking at a reference asks
the graph for the change that its verdict calls for, and leads on to the target
of an internal dependency that is new (`ModuleAtlas.Build.recorded_addReference`).
Entering a file either leaves it for later or makes it stale, and opens it if it
can be read (`ModuleAtlas.Build.entered_of_enter`).
-/

namespace ModuleAtlas

/-- The changes that a verdict on a reference of a file calls for. -/
def Verdict.operations (file : String) : Verdict → List Operation
  | .internal target => [.addDependency file target false]
  | .external id => [.addDependency file id true]
  | .dropped => []

/-- The target of an internal dependency that a graph does not have yet. -/
def Verdict.newTarget (graph : Graph) (file : String) : Verdict → Option String
  | .internal target => if graph.hasEdge file target then none else some target
  | _ => none

namespace Build

namespace Progress

/-- Recording an event leaves the graph alone. -/
@[simp]
theorem graph_record (progress : Progress) (event : Event) :
    (progress.record event).graph = progress.graph := rfl

/-- A notice leaves the graph alone. -/
@[simp]
theorem graph_note (progress : Progress) (notice : Notice) :
    (progress.note notice).graph = progress.graph := rfl

/-- Any run of notices leaves the graph alone. -/
@[simp]
theorem graph_noteAll (progress : Progress) (notices : List Notice) :
    (progress.noteAll notices).graph = progress.graph := by
  induction notices generalizing progress with
  | nil => rfl
  | cons notice notices ih => exact ih (progress.note notice)

/-- Performing an operation applies it to the graph: the graph and the record never part. -/
@[simp]
theorem graph_perform (progress : Progress) (operation : Operation) :
    (progress.perform operation).graph = progress.graph.apply operation := rfl

/-- Entering a file touches what is fresh, not the graph. -/
@[simp]
theorem graph_enter (progress : Progress) (file : String) :
    (progress.enter file).graph = progress.graph := rfl

/-- Recording an event spends no file. -/
@[simp]
theorem fresh_record (progress : Progress) (event : Event) :
    (progress.record event).fresh = progress.fresh := rfl

/-- Entering a file spends that file and no other. -/
@[simp]
theorem fresh_enter (progress : Progress) (file : String) :
    (progress.enter file).fresh = progress.fresh.filter (· ≠ file) := rfl

/-- What is read off the events, one event later. -/
theorem filterMap_events_record {α : Type} (read : Event → Option α) (progress : Progress)
    (event : Event) :
    (progress.record event).events.filterMap read =
      progress.events.filterMap read ++ (read event).toList := by
  unfold events record
  rw [List.reverse_cons, List.filterMap_append, List.filterMap_cons, List.filterMap_nil]
  cases read event <;> rfl

/-- Opening a file is no operation on the graph. -/
@[simp]
theorem operations_record_opened (progress : Progress) (file : String) :
    (progress.record (.opened file)).operations = progress.operations :=
  (filterMap_events_record _ progress (.opened file)).trans (List.append_nil _)

/-- A notice is no operation on the graph. -/
@[simp]
theorem operations_note (progress : Progress) (notice : Notice) :
    (progress.note notice).operations = progress.operations :=
  (filterMap_events_record _ progress (.notice notice)).trans (List.append_nil _)

/-- No run of notices adds an operation. -/
@[simp]
theorem operations_noteAll (progress : Progress) (notices : List Notice) :
    (progress.noteAll notices).operations = progress.operations := by
  induction notices generalizing progress with
  | nil => rfl
  | cons notice notices ih =>
      exact (ih (progress.note notice)).trans (operations_note progress notice)

/-- An operation performed is the last one of the record. -/
@[simp]
theorem operations_perform (progress : Progress) (operation : Operation) :
    (progress.perform operation).operations = progress.operations ++ [operation] :=
  filterMap_events_record _ progress (.operation operation)

/-- Entering a file adds no operation by itself. -/
@[simp]
theorem operations_enter (progress : Progress) (file : String) :
    (progress.enter file).operations = progress.operations := rfl

/-- An opening recorded is the last one of the record. -/
@[simp]
theorem openings_record_opened (progress : Progress) (file : String) :
    (progress.record (.opened file)).openings = progress.openings ++ [file] :=
  filterMap_events_record _ progress (.opened file)

/-- A notice is no opening. -/
@[simp]
theorem openings_note (progress : Progress) (notice : Notice) :
    (progress.note notice).openings = progress.openings :=
  (filterMap_events_record _ progress (.notice notice)).trans (List.append_nil _)

/-- No run of notices adds an opening. -/
@[simp]
theorem openings_noteAll (progress : Progress) (notices : List Notice) :
    (progress.noteAll notices).openings = progress.openings := by
  induction notices generalizing progress with
  | nil => rfl
  | cons notice notices ih =>
      exact (ih (progress.note notice)).trans (openings_note progress notice)

/-- An operation on the graph is no opening. -/
@[simp]
theorem openings_perform (progress : Progress) (operation : Operation) :
    (progress.perform operation).openings = progress.openings :=
  (filterMap_events_record _ progress (.operation operation)).trans (List.append_nil _)

/-- Entering a file records no opening by itself. -/
@[simp]
theorem openings_enter (progress : Progress) (file : String) :
    (progress.enter file).openings = progress.openings := rfl

end Progress

/-- What looking at a reference of a file does: the graph changes as the verdict
calls for, and the target of a new internal dependency is next. -/
structure Recorded (task : Task) (file reference : String) (before after : Progress)
    (target : Option String) : Prop where
  graph : after.graph =
    before.graph.replay ((task.project.verdict file reference).2.operations file)
  fresh : after.fresh = before.fresh
  operations : after.operations =
    before.operations ++ (task.project.verdict file reference).2.operations file
  openings : after.openings = before.openings
  target : target = (task.project.verdict file reference).2.newTarget before.graph file

/-- Taking up one reference does one of the things `Recorded` lists, and nothing else. -/
theorem recorded_addReference {task : Task} {file reference : String} {before after : Progress}
    {target : Option String}
    (added : addReference task file reference before = (after, target)) :
    Recorded task file reference before after target := by
  rcases judged : task.project.verdict file reference with ⟨notices, verdict⟩
  simp only [addReference, judged] at added
  cases verdict with
  | dropped =>
      cases added
      constructor <;> simp [judged, Verdict.operations, Verdict.newTarget, Graph.replay]
  | external id =>
      cases added
      constructor <;> simp [judged, Verdict.operations, Verdict.newTarget, Graph.replay]
  | internal found =>
      simp only [Progress.graph_noteAll] at added
      split at added
      all_goals
        next known =>
          cases added
          constructor <;>
            simp [judged, Verdict.operations, Verdict.newTarget, Graph.replay, known]

/-- A reference stands for no dependency and changes nothing, or it adds the one
that it stands for. -/
theorem Recorded.cases {task : Task} {file reference : String} {before after : Progress}
    {target : Option String} (recorded : Recorded task file reference before after target) :
    (task.project.dependency? file reference = none ∧ after.graph = before.graph ∧ target = none) ∨
      ∃ id isExternal, task.project.dependency? file reference = some (id, isExternal) ∧
        after.graph = before.graph.addDependency file id isExternal ∧
          target = if isExternal || before.graph.hasEdge file id then none else some id := by
  have graph := recorded.graph
  have led := recorded.target
  rw [← Project.dependency_verdict]
  cases judged : (task.project.verdict file reference).2 with
  | dropped =>
      rw [judged] at graph led
      exact Or.inl ⟨rfl, graph, led⟩
  | external id =>
      rw [judged] at graph led
      exact Or.inr ⟨id, true, rfl, graph, led⟩
  | internal id =>
      rw [judged] at graph led
      exact Or.inr ⟨id, false, rfl, graph, led⟩

/-- The file a reference hands on: its internal target, unless the edge to it was there already. -/
theorem Recorded.target_eq {task : Task} {file reference : String} {before after : Progress}
    {target : Option String} (recorded : Recorded task file reference before after target) :
    target = (task.project.dependency? file reference).bind fun entry =>
      if entry.2 || before.graph.hasEdge file entry.1 then none else some entry.1 := by
  rcases recorded.cases with ⟨nothing, -, led⟩ | ⟨id, isExternal, entry, -, led⟩
  · rw [nothing]
    exact led
  · rw [entry]
    exact led

/-- Taking up a reference scans no file. -/
theorem Recorded.scanned {task : Task} {file reference : String} {before after : Progress}
    {target : Option String} (recorded : Recorded task file reference before after target) :
    after.graph.scanned = before.graph.scanned := by
  rcases recorded.cases with ⟨-, same, -⟩ | ⟨id, isExternal, -, added, -⟩
  · rw [same]
  · rw [added, Graph.scanned_addDependency]

/-- Taking up a reference loses no edge. -/
theorem Recorded.mem_edges {task : Task} {file reference : String} {before after : Progress}
    {target : Option String} (recorded : Recorded task file reference before after target)
    {edge : Edge} (member : edge ∈ before.graph.edges) : edge ∈ after.graph.edges := by
  rcases recorded.cases with ⟨-, same, -⟩ | ⟨id, isExternal, -, added, -⟩
  · rwa [same]
  · rw [added]
    exact Graph.mem_edges_addDependency_of_mem member file id isExternal

/-- An edge that is new leaves the file, and if it is internal its target is next. -/
theorem Recorded.mem_edges_cases {task : Task} {file reference : String}
    {before after : Progress} {target : Option String}
    (recorded : Recorded task file reference before after target) {edge : Edge}
    (member : edge ∈ after.graph.edges) :
    edge ∈ before.graph.edges ∨
      edge.source = file ∧ (edge.isExternal = false → target = some edge.target) := by
  rcases recorded.cases with ⟨-, same, -⟩ | ⟨id, isExternal, -, added, led⟩
  · rw [same] at member
    exact Or.inl member
  · rw [added, Graph.edges_addDependency] at member
    split at member
    · exact Or.inl member
    · next unjoined =>
        rcases List.mem_append.mp member with old | new
        · exact Or.inl old
        · rw [List.mem_singleton] at new
          subst new
          refine Or.inr ⟨rfl, fun (internal : isExternal = false) => ?_⟩
          rw [led, internal, Bool.false_or, if_neg unjoined]

/-- The file that a reference leads on to is the target of an internal edge. -/
theorem Recorded.hasInternalEdge {task : Task} {file reference next : String}
    {before after : Progress} (recorded : Recorded task file reference before after (some next)) :
    after.graph.HasInternalEdge file next := by
  rcases recorded.cases with ⟨-, -, led⟩ | ⟨id, isExternal, -, added, led⟩
  · cases led
  · split at led
    · cases led
    · next new =>
        cases led
        rw [Bool.or_eq_true, not_or, Bool.not_eq_true] at new
        rw [Graph.HasInternalEdge, added, Graph.edges_addDependency, if_neg new.2, new.1]
        exact List.mem_append_right _ (List.mem_singleton_self _)

/-- What entering a file does when nothing goes wrong: it lies beyond the limit
and stays fresh, or it is no regular file, cannot be read, or is opened. -/
inductive Entered (task : Task) (depth : Nat) (file : String) (before after : Progress) :
    Option Frame → Prop where
  | beyond (limit : task.limit.isExceededBy depth = .ok true)
      (graph : after.graph = before.graph) (fresh : after.fresh = before.fresh)
      (operations : after.operations = before.operations)
      (openings : after.openings = before.openings) :
      Entered task depth file before after none
  | irregular (limit : task.limit.isExceededBy depth = .ok false)
      (regular : task.project.tree.isFile? (task.project.fullPath file) = .ok false)
      (graph : after.graph = before.graph) (fresh : after.fresh = before.fresh.filter (· ≠ file))
      (operations : after.operations = before.operations)
      (openings : after.openings = before.openings) :
      Entered task depth file before after none
  | unreadable {failure : Failure} (limit : task.limit.isExceededBy depth = .ok false)
      (regular : task.project.tree.isFile? (task.project.fullPath file) = .ok true)
      (read : Reference.ofPath task.project.tree (task.project.fullPath file) = .error failure)
      (graph : after.graph = before.graph) (fresh : after.fresh = before.fresh.filter (· ≠ file))
      (operations : after.operations = before.operations)
      (openings : after.openings = before.openings ++ [file]) :
      Entered task depth file before after none
  | opened {references : List String} (limit : task.limit.isExceededBy depth = .ok false)
      (regular : task.project.tree.isFile? (task.project.fullPath file) = .ok true)
      (read : Reference.ofPath task.project.tree (task.project.fullPath file) = .ok references)
      (graph : after.graph = before.graph.addFile file)
      (fresh : after.fresh = before.fresh.filter (· ≠ file))
      (operations : after.operations = before.operations ++ [.addFile file])
      (openings : after.openings = before.openings ++ [file]) :
      Entered task depth file before after (some ⟨file, depth, references⟩)

/-- An entry that does not fail does one of the things `Entered` lists, and nothing else. -/
theorem entered_of_enter {task : Task} {depth : Nat} {file : String} {before after : Progress}
    {opened : Option Frame} (entered : enter task depth file before = (after, .ok opened)) :
    Entered task depth file before after opened := by
  simp only [enter] at entered
  split at entered
  · cases entered
  · next limit =>
      cases entered
      exact .beyond limit rfl rfl (Progress.operations_note _ _) (Progress.openings_note _ _)
  · next limit =>
      split at entered
      · cases entered
      · next regular =>
          cases entered
          exact .irregular limit regular rfl rfl rfl rfl
      · next regular =>
          split at entered
          · next read =>
              cases entered
              refine .unreadable limit regular read rfl rfl ?_ ?_
              · simp only [Progress.operations_note, Progress.operations_record_opened,
                  Progress.operations_enter]
              · simp only [Progress.openings_note, Progress.openings_record_opened,
                  Progress.openings_enter]
          · next read =>
              cases entered
              refine .opened limit regular read rfl rfl ?_ ?_
              · simp only [Progress.operations_note, Progress.operations_perform,
                  Progress.operations_record_opened, Progress.operations_enter]
              · simp only [Progress.openings_note, Progress.openings_perform,
                  Progress.openings_record_opened, Progress.openings_enter]

/-- Entering a file adds no edge and loses none. -/
theorem Entered.edges {task : Task} {depth : Nat} {file : String} {before after : Progress}
    {opened : Option Frame} (entered : Entered task depth file before after opened) :
    after.graph.edges = before.graph.edges := by
  cases entered with
  | beyond _ graph => rw [graph]
  | irregular _ _ graph => rw [graph]
  | unreadable _ _ _ graph => rw [graph]
  | opened _ _ _ graph => rw [graph, Graph.edges_addFile]

/-- Entering a file scans that file if a frame is opened for it, and no other file. -/
theorem Entered.mem_scanned {task : Task} {depth : Nat} {file other : String}
    {before after : Progress} {opened : Option Frame}
    (entered : Entered task depth file before after opened) :
    other ∈ after.graph.scanned ↔
      other ∈ before.graph.scanned ∨ opened.isSome ∧ other = file := by
  cases entered with
  | beyond _ graph => simp only [graph, Option.isSome_none, Bool.false_eq_true, false_and, or_false]
  | irregular _ _ graph =>
      simp only [graph, Option.isSome_none, Bool.false_eq_true, false_and, or_false]
  | unreadable _ _ _ graph =>
      simp only [graph, Option.isSome_none, Bool.false_eq_true, false_and, or_false]
  | opened _ _ _ graph => simp only [graph, Graph.mem_scanned_addFile, Option.isSome_some, true_and]

/-- Entering a file makes no file fresh. -/
theorem Entered.fresh_of_mem {task : Task} {depth : Nat} {file other : String}
    {before after : Progress} {opened : Option Frame}
    (entered : Entered task depth file before after opened) (fresh : other ∈ after.fresh) :
    other ∈ before.fresh := by
  cases entered with
  | beyond _ _ same => rwa [same] at fresh
  | irregular _ _ _ left => exact (List.mem_filter.mp (left ▸ fresh)).1
  | unreadable _ _ _ _ left => exact (List.mem_filter.mp (left ▸ fresh)).1
  | opened _ _ _ _ left => exact (List.mem_filter.mp (left ▸ fresh)).1

/-- Entering a file fails only where the limit cannot be compared or the file
cannot be probed, and then nothing was recorded. -/
theorem enter_eq_error {task : Task} {depth : Nat} {file : String} {before after : Progress}
    {failure : Failure} (entered : enter task depth file before = (after, .error failure)) :
    (task.limit.isExceededBy depth = .error failure ∧ after = before ∨
      task.limit.isExceededBy depth = .ok false ∧
        task.project.tree.isFile? (task.project.fullPath file) = .error failure ∧
          after = before.enter file) := by
  simp only [enter] at entered
  split at entered
  · next limit =>
      cases entered
      exact Or.inl ⟨limit, rfl⟩
  · cases entered
  · next limit =>
      split at entered
      · next probe =>
          cases entered
          exact Or.inr ⟨limit, probe, rfl⟩
      · cases entered
      · split at entered <;> cases entered

end Build

end ModuleAtlas
