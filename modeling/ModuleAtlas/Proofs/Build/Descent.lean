import Mathlib.Data.Finset.Card
import ModuleAtlas.Proofs.Build.Steps

/-! # Traversals as recursive descents

A recursive descent visits a file unless it was processed before or lies beyond
the limit, and expands its references one after the other: before it looks at the
next reference it visits the file that a new internal dependency leads to. It
keeps the files processed so far and the changes that it asks of an empty graph,
and has no stack of its own.

A stack of frames is what is left to do of the visits that are still open
(`ModuleAtlas.Build.Descent.expandAll`). Working it off asks for the same changes
as those visits do (`ModuleAtlas.Build.Descent.agreesWith_run`), and so a build asks
for the same changes, in the same order, as a descent does
(`ModuleAtlas.Build.build_eq_descent`).
-/

namespace ModuleAtlas

/-- The references of a file of a project, if it is a regular file that can be
read. -/
def Project.references? (project : Project) (file : String) :
    Except Failure (Option (List String)) :=
  match project.tree.isFile? (project.fullPath file) with
  | .error failure => .error failure
  | .ok false => .ok none
  | .ok true => .ok (Reference.ofPath project.tree (project.fullPath file)).toOption

/-- A file that cannot be probed yields the failure of the probe, not references. -/
theorem Project.references?_of_error {project : Project} {file : String} {failure : Failure}
    (probed : project.tree.isFile? (project.fullPath file) = .error failure) :
    project.references? file = .error failure := by
  unfold references?
  rw [probed]

private theorem Project.references?_of_irregular {project : Project} {file : String}
    (probed : project.tree.isFile? (project.fullPath file) = .ok false) :
    project.references? file = .ok none := by
  unfold references?
  rw [probed]

/-- A regular file yields its references, or nothing if it cannot be read. -/
theorem Project.references?_of_regular {project : Project} {file : String}
    (probed : project.tree.isFile? (project.fullPath file) = .ok true) :
    project.references? file =
      .ok (Reference.ofPath project.tree (project.fullPath file)).toOption := by
  unfold references?
  rw [probed]

namespace Build

/-- How far a recursive descent has come: the files processed so far, and the
changes asked of an empty graph. -/
structure Descent where
  processed : Finset String
  operations : List Operation

namespace Descent

/-- A descent that has not visited anything. -/
def start : Descent := ⟨∅, []⟩

/-- The graph that the changes make of an empty one. -/
def graph (descent : Descent) : Graph := Graph.empty.replay descent.operations

/-- The descent with a file processed. -/
def mark (descent : Descent) (file : String) : Descent :=
  { descent with processed := insert file descent.processed }

/-- The descent with more changes asked for. -/
def perform (descent : Descent) (operations : List Operation) : Descent :=
  { descent with operations := descent.operations ++ operations }

/-- How a descent with some files processed goes on: to a descent in which none
of them is unprocessed again, and possibly to a failure. -/
abbrev Outcome (processed : Finset String) :=
  { result : Descent × Option Failure // processed ⊆ result.1.processed }

mutual

/-- Visits a file at some depth; `known` are the discovered files. -/
def visitFrom (task : Task) (known : Finset String) (file : String) (depth : Nat)
    (processed : Finset String) (operations : List Operation) : Outcome processed :=
  if _seen : file ∈ processed then ⟨(⟨processed, operations⟩, none), subset_rfl⟩
  else
    match task.limit.isExceededBy depth with
    | .error failure => ⟨(⟨processed, operations⟩, some failure), subset_rfl⟩
    | .ok true => ⟨(⟨processed, operations⟩, none), subset_rfl⟩
    | .ok false =>
        match task.project.references? file with
        | .error failure =>
            ⟨(⟨insert file processed, operations⟩, some failure), Finset.subset_insert _ _⟩
        | .ok none => ⟨(⟨insert file processed, operations⟩, none), Finset.subset_insert _ _⟩
        | .ok (some references) =>
            let result := expandFrom task known file depth references (insert file processed)
              (operations ++ [.addFile file])
            ⟨result.1, subset_trans (Finset.subset_insert _ _) result.2⟩
termination_by ((insert file known \ processed).card, 0)
decreasing_by
  -- The file itself is the one that is no longer unprocessed.
  refine Prod.Lex.left _ _ (Finset.card_lt_card ?_)
  rw [Finset.ssubset_iff_of_subset]
  · exact ⟨file, by simp [_seen], by simp⟩
  · intro other
    simp only [Finset.mem_sdiff, Finset.mem_insert]
    tauto

/-- Looks at the references of a file one after the other. -/
def expandFrom (task : Task) (known : Finset String) (file : String) (depth : Nat)
    (references : List String) (processed : Finset String) (operations : List Operation) :
    Outcome processed :=
  match references with
  | [] => ⟨(⟨processed, operations⟩, none), subset_rfl⟩
  | reference :: references =>
      let verdict := (task.project.verdict file reference).2
      let recorded := operations ++ verdict.operations file
      match verdict.newTarget (Graph.empty.replay operations) file with
      | none => expandFrom task known file depth references processed recorded
      | some target =>
          if _inside : target ∈ known then
            match visitFrom task known target (depth + 1) processed recorded with
            | ⟨(next, some failure), kept⟩ => ⟨(next, some failure), kept⟩
            | ⟨(next, none), kept⟩ =>
                let result := expandFrom task known file depth references next.processed
                  next.operations
                ⟨result.1, subset_trans kept result.2⟩
          else expandFrom task known file depth references processed recorded
termination_by ((known \ processed).card, references.length + 1)
decreasing_by
  -- The target is known; visits of unknown files could bring in new ones for ever.
  · exact Prod.Lex.right _ (by simp only [List.length_cons, Nat.lt_add_one])
  · rw [Finset.insert_eq_of_mem _inside]
    exact Prod.Lex.right _ (by simp)
  · exact Prod.Lex.right' _ (Finset.card_le_card (Finset.sdiff_subset_sdiff subset_rfl kept))
      (by simp only [List.length_cons, Nat.lt_add_one])
  · exact Prod.Lex.right _ (by simp only [List.length_cons, Nat.lt_add_one])

end

/-- Visits a file at some depth; `known` are the discovered files. -/
def visit (task : Task) (known : Finset String) (file : String) (depth : Nat)
    (descent : Descent) : Descent × Option Failure :=
  (visitFrom task known file depth descent.processed descent.operations).1

/-- Looks at the references of a file one after the other. -/
def expand (task : Task) (known : Finset String) (file : String) (depth : Nat)
    (references : List String) (descent : Descent) : Descent × Option Failure :=
  (expandFrom task known file depth references descent.processed descent.operations).1

/-- Goes on from a result unless it is a failure. -/
def andThen (result : Descent × Option Failure) (next : Descent → Descent × Option Failure) :
    Descent × Option Failure :=
  match result with
  | (descent, none) => next descent
  | (descent, some failure) => (descent, some failure)

private theorem andThen_assoc (result : Descent × Option Failure)
    (next later : Descent → Descent × Option Failure) :
    andThen (andThen result next) later = andThen result fun descent =>
      andThen (next descent) later := by
  obtain ⟨descent, _ | failure⟩ := result <;> rfl

private theorem andThen_pure (result : Descent × Option Failure) :
    andThen result (fun descent => (descent, none)) = result := by
  obtain ⟨descent, _ | failure⟩ := result <;> rfl

/-- What a visit does. -/
theorem visit_eq (task : Task) (known : Finset String) (file : String) (depth : Nat)
    (descent : Descent) :
    visit task known file depth descent =
      if file ∈ descent.processed then (descent, none)
      else
        match task.limit.isExceededBy depth with
        | .error failure => (descent, some failure)
        | .ok true => (descent, none)
        | .ok false =>
            match task.project.references? file with
            | .error failure => (descent.mark file, some failure)
            | .ok none => (descent.mark file, none)
            | .ok (some references) =>
                expand task known file depth references
                  ((descent.mark file).perform [.addFile file]) := by
  unfold visit visitFrom
  split
  · rfl
  · cases task.limit.isExceededBy depth with
    | error failure => rfl
    | ok exceeded =>
        cases exceeded with
        | true => rfl
        | false =>
            rcases task.project.references? file with failure | _ | references <;> rfl

section Visits

variable {task : Task} {known : Finset String} {file : String} {depth : Nat} {descent : Descent}

/-- A file processed before is not visited again. -/
theorem visit_of_processed (seen : file ∈ descent.processed) :
    visit task known file depth descent = (descent, none) := by
  rw [visit_eq, if_pos seen]

/-- A file beyond the depth limit is passed over and stays unprocessed. -/
theorem visit_of_beyond (exceeded : task.limit.isExceededBy depth = .ok true) :
    visit task known file depth descent = (descent, none) := by
  rw [visit_eq, exceeded]
  exact ite_self _

/-- A readable file within the limit is added and its references are expanded. -/
theorem visit_of_references {references : List String} (unseen : file ∉ descent.processed)
    (within : task.limit.isExceededBy depth = .ok false)
    (read : task.project.references? file = .ok (some references)) :
    visit task known file depth descent =
      expand task known file depth references ((descent.mark file).perform [.addFile file]) := by
  rw [visit_eq, if_neg unseen, within, read]

/-- A file whose probe fails ends the descent and counts as processed. -/
theorem visit_of_refused {failure : Failure} (unseen : file ∉ descent.processed)
    (within : task.limit.isExceededBy depth = .ok false)
    (refused : task.project.references? file = .error failure) :
    visit task known file depth descent = (descent.mark file, some failure) := by
  rw [visit_eq, if_neg unseen, within, refused]

end Visits

/-- Without references there is nothing to expand. -/
theorem expand_nil (task : Task) (known : Finset String) (file : String) (depth : Nat)
    (descent : Descent) : expand task known file depth [] descent = (descent, none) := by
  unfold expand expandFrom
  rfl

/-- Records what becomes of one reference, and visits the discovered file that a
new internal dependency leads to. -/
def follow (task : Task) (known : Finset String) (file : String) (depth : Nat)
    (reference : String) (descent : Descent) : Descent × Option Failure :=
  let verdict := (task.project.verdict file reference).2
  let recorded := descent.perform (verdict.operations file)
  match verdict.newTarget descent.graph file with
  | none => (recorded, none)
  | some target =>
      if target ∈ known then visit task known target (depth + 1) recorded else (recorded, none)

/-- A reference to a discovered file that stands for a new dependency is followed to the
visit of that file. -/
theorem follow_of_internal {task : Task} {known : Finset String} {file reference target : String}
    {descent : Descent} (judged : (task.project.verdict file reference).2 = .internal target)
    (new : descent.graph.hasEdge file target = false) (inside : target ∈ known) (depth : Nat) :
    follow task known file depth reference descent =
      visit task known target (depth + 1)
        (descent.perform [.addDependency file target false]) := by
  unfold follow
  rw [judged]
  simp only [Verdict.newTarget, new, Bool.false_eq_true, ↓reduceIte, inside]
  rfl

/-- A reference to something external is recorded, and that is all. -/
theorem follow_of_external {task : Task} {known : Finset String} {file reference id : String}
    {descent : Descent} (judged : (task.project.verdict file reference).2 = .external id)
    (depth : Nat) :
    follow task known file depth reference descent =
      (descent.perform [.addDependency file id true], none) := by
  unfold follow
  rw [judged]
  rfl

/-- The first reference is followed before the others are looked at. -/
theorem expand_cons (task : Task) (known : Finset String) (file : String) (depth : Nat)
    (reference : String) (references : List String) (descent : Descent) :
    expand task known file depth (reference :: references) descent =
      andThen (follow task known file depth reference descent)
        (expand task known file depth references) := by
  unfold expand
  rw [expandFrom.eq_def]
  dsimp only [follow, graph]
  cases (task.project.verdict file reference).2.newTarget (Graph.empty.replay descent.operations)
      file with
  | none => rfl
  | some target =>
      by_cases inside : target ∈ known
      · simp only [inside, ↓reduceDIte, ↓reduceIte]
        dsimp only [visit, perform]
        rcases visitFrom task known target (depth + 1) _ _ with ⟨⟨next, _ | failure⟩, kept⟩ <;> rfl
      · simp only [inside, ↓reduceDIte, ↓reduceIte]
        rfl

/-- Works off frames from the innermost on: what is left to do of visits that are
still open. -/
def expandAll (task : Task) (known : Finset String) (descent : Descent) :
    List Frame → Descent × Option Failure
  | [] => (descent, none)
  | frame :: frames =>
      andThen (expand task known frame.file frame.depth frame.references descent)
        fun next => expandAll task known next frames

private theorem expandAll_append (task : Task) (known : Finset String) (descent : Descent)
    (inner outer : List Frame) :
    expandAll task known descent (inner ++ outer) =
      andThen (expandAll task known descent inner) fun next => expandAll task known next outer := by
  induction inner generalizing descent with
  | nil => rfl
  | cons frame inner ih =>
      rw [List.cons_append, expandAll, expandAll, andThen_assoc]
      congr 1
      funext next
      exact ih next

private theorem expandAll_singleton (task : Task) (known : Finset String) (descent : Descent)
    (frame : Frame) :
    expandAll task known descent [frame] =
      expand task known frame.file frame.depth frame.references descent := by
  rw [expandAll]
  exact andThen_pure _

private theorem expandAll_close (task : Task) (known : Finset String) (descent : Descent)
    (file : String) (depth : Nat) (frames : List Frame) :
    expandAll task known descent (⟨file, depth, []⟩ :: frames) =
      expandAll task known descent frames := by
  rw [expandAll, expand_nil]
  rfl

private theorem expandAll_follow (task : Task) (known : Finset String) (descent : Descent)
    (file : String) (depth : Nat) (reference : String) (references : List String)
    (frames : List Frame) :
    expandAll task known descent (⟨file, depth, reference :: references⟩ :: frames) =
      andThen (follow task known file depth reference descent) fun next =>
        expandAll task known next (⟨file, depth, references⟩ :: frames) := by
  rw [expandAll, expand_cons, andThen_assoc]
  rfl

/-- A descent and the progress of a traversal that asked for the same changes and
left the same files for later. -/
structure Agrees (known : Finset String) (descent : Descent) (progress : Progress) : Prop where
  graph : progress.graph = descent.graph
  operations : progress.operations = descent.operations
  fresh : ∀ file, file ∈ progress.fresh ↔ file ∈ known ∧ file ∉ descent.processed

/-- A descent and a traversal that ended alike. -/
def AgreesWith (known : Finset String) (result : Descent × Option Failure)
    (ended : Progress × Option Failure) : Prop :=
  Agrees known result.1 ended.1 ∧ result.2 = ended.2

private theorem Agrees.perform {known : Finset String} {descent : Descent} {before after : Progress}
    {operations : List Operation} (agrees : Agrees known descent before)
    (graph : after.graph = before.graph.replay operations)
    (asked : after.operations = before.operations ++ operations)
    (fresh : after.fresh = before.fresh) :
    Agrees known (descent.perform operations) after where
  graph := by
    rw [graph, agrees.graph]
    simp only [Descent.graph, Descent.perform, Graph.replay, List.foldl_append]
  operations := by rw [asked, agrees.operations]; rfl
  fresh file := by rw [fresh]; exact agrees.fresh file

private theorem Agrees.mark {known : Finset String} {descent : Descent} {before after : Progress}
    {file : String} (agrees : Agrees known descent before) (graph : after.graph = before.graph)
    (asked : after.operations = before.operations)
    (fresh : after.fresh = before.fresh.filter (· ≠ file)) :
    Agrees known (descent.mark file) after where
  graph := graph.trans agrees.graph
  operations := asked.trans agrees.operations
  fresh other := by
    rw [fresh, List.mem_filter, agrees.fresh, decide_eq_true_eq, Descent.mark,
      Finset.mem_insert, not_or, and_assoc, and_comm (a := other ≠ file)]

/-- Entering a file is the start of its visit: what the visit goes on to do is
to work off the frame that was opened. -/
theorem exists_visit_eq_of_entered {task : Task} {known : Finset String} {descent : Descent}
    {before after : Progress} {depth : Nat} {file : String} {opened : Option Frame}
    (agrees : Agrees known descent before) (unprocessed : file ∉ descent.processed)
    (entered : Entered task depth file before after opened) :
    ∃ next, Agrees known next after ∧
      visit task known file depth descent = expandAll task known next opened.toList := by
  rw [visit_eq, if_neg unprocessed]
  cases entered with
  | beyond limit graph fresh operations _ =>
      refine ⟨descent, ⟨graph.trans agrees.graph, operations.trans agrees.operations, ?_⟩, ?_⟩
      · rw [fresh]
        exact agrees.fresh
      · rw [limit]
        rfl
  | irregular limit regular graph fresh operations _ =>
      refine ⟨descent.mark file, agrees.mark graph operations fresh, ?_⟩
      rw [limit, Project.references?_of_irregular regular]
      rfl
  | unreadable limit regular read graph fresh operations _ =>
      refine ⟨descent.mark file, agrees.mark graph operations fresh, ?_⟩
      rw [limit, Project.references?_of_regular regular, read]
      rfl
  | opened limit regular read graph fresh operations _ =>
      have entered : Agrees known (descent.mark file) (before.enter file) :=
        agrees.mark rfl rfl rfl
      refine ⟨(descent.mark file).perform [.addFile file],
        entered.perform graph operations fresh, ?_⟩
      rw [limit, Project.references?_of_regular regular, read, Option.toList_some,
        expandAll_singleton]
      rfl

private theorem visit_of_failed {task : Task} {known : Finset String} {descent : Descent}
    {before after : Progress} {depth : Nat} {file : String} {failure : Failure}
    (agrees : Agrees known descent before) (unprocessed : file ∉ descent.processed)
    (failed : enter task depth file before = (after, .error failure)) :
    AgreesWith known (visit task known file depth descent) (after, some failure) := by
  rw [visit_eq, if_neg unprocessed]
  rcases enter_eq_error failed with ⟨limit, rfl⟩ | ⟨limit, probed, rfl⟩
  · rw [limit]
    exact ⟨agrees, rfl⟩
  · rw [limit, Project.references?_of_error probed]
    exact ⟨agrees.mark rfl rfl rfl, rfl⟩

/-- A reference that leads to no file left for later is followed nowhere. -/
theorem follow_of_stale {task : Task} {known : Finset String} {descent : Descent}
    {before after : Progress} {file reference : String} {target : Option String}
    (agrees : Agrees known descent before)
    (recorded : Recorded task file reference before after target)
    (stale : ∀ next ∈ target, next ∉ before.fresh) (depth : Nat) :
    follow task known file depth reference descent =
      (descent.perform ((task.project.verdict file reference).2.operations file), none) := by
  have led := recorded.target
  rw [agrees.graph] at led
  unfold follow
  dsimp only
  rw [← led]
  cases target with
  | none => rfl
  | some next =>
      have absent := stale next rfl
      rw [agrees.fresh] at absent
      by_cases inside : next ∈ known
      · have seen : next ∈ descent.processed := by
          by_contra unseen
          exact absent ⟨inside, unseen⟩
        dsimp only
        rw [if_pos inside, visit_eq]
        exact if_pos seen
      · exact if_neg inside

/-- A reference that leads to a file left for later is followed to its visit. -/
theorem follow_of_fresh {task : Task} {known : Finset String} {descent : Descent}
    {before after : Progress} {file reference next : String}
    (agrees : Agrees known descent before)
    (recorded : Recorded task file reference before after (some next))
    (fresh : next ∈ before.fresh) (depth : Nat) :
    next ∉ descent.processed ∧ follow task known file depth reference descent =
      visit task known next (depth + 1)
        (descent.perform ((task.project.verdict file reference).2.operations file)) := by
  obtain ⟨inside, unseen⟩ := (agrees.fresh next).mp fresh
  have led := recorded.target
  rw [agrees.graph] at led
  refine ⟨unseen, ?_⟩
  unfold follow
  dsimp only
  rw [← led]
  exact if_pos inside

/-- To enter the file that a reference leads to is to start its visit on top of the
visits that are open. -/
theorem exists_expandAll_eq_of_descend {task : Task} {known : Finset String} {descent : Descent}
    {before between after : Progress} {file reference next : String} {depth : Nat}
    {opened : Option Frame} (agrees : Agrees known descent before)
    (recorded : Recorded task file reference before between (some next))
    (fresh : next ∈ before.fresh) (entered : Entered task (depth + 1) next between after opened)
    (references : List String) (frames : List Frame) :
    ∃ later, Agrees known later after ∧
      expandAll task known descent (⟨file, depth, reference :: references⟩ :: frames) =
        expandAll task known later (opened.toList ++ ⟨file, depth, references⟩ :: frames) := by
  obtain ⟨unseen, followed⟩ := follow_of_fresh agrees recorded fresh depth
  have noted := agrees.perform recorded.graph recorded.operations recorded.fresh
  obtain ⟨later, agreed, visited⟩ := exists_visit_eq_of_entered noted unseen entered
  refine ⟨later, agreed, ?_⟩
  rw [expandAll_follow, followed, visited, ← expandAll_append]

/-- Working off a stack of frames does what is left to do of the open visits. The
induction is on the traversal; the stack is related to the descent as a whole,
since every frame is a visit suspended between two references. -/
theorem agreesWith_run (task : Task) (known : Finset String) {descent : Descent}
    {progress : Progress} (agrees : Agrees known descent progress) (frames : List Frame) :
    AgreesWith known (expandAll task known descent frames) (run task progress frames) := by
  induction progress, frames using run_induction task generalizing descent with
  | nil progress =>
      rw [run_nil]
      exact ⟨agrees, rfl⟩
  | close progress file depth frames ih =>
      rw [run_close, expandAll_close]
      exact ih agrees
  | pass depth references frames added stale ih =>
      have recorded := recorded_addReference added
      rw [run_pass added stale, expandAll_follow,
        follow_of_stale agrees recorded (recorded.fresh ▸ stale)]
      exact ih (agrees.perform recorded.graph recorded.operations recorded.fresh)
  | @fail progress noted next file reference target failure depth references frames added fresh
      failed =>
      have recorded := recorded_addReference added
      obtain ⟨unseen, followed⟩ :=
        follow_of_fresh agrees recorded (recorded.fresh ▸ fresh) depth
      rw [run_fail added fresh failed, expandAll_follow, followed]
      obtain ⟨result, ended⟩ := visit_of_failed
        (agrees.perform recorded.graph recorded.operations recorded.fresh) unseen failed
      rcases visited : visit task known target (depth + 1) _ with ⟨last, _ | other⟩
      · rw [visited] at ended
        cases ended
      · rw [visited] at result ended
        exact ⟨result, ended⟩
  | descend depth references frames added fresh entered ih =>
      have recorded := recorded_addReference added
      obtain ⟨later, agreed, expanded⟩ := exists_expandAll_eq_of_descend agrees recorded
        (recorded.fresh ▸ fresh) (entered_of_enter entered) references frames
      rw [run_descend added fresh entered, expanded]
      exact ih agreed

private theorem agreesWith_traverse (task : Task) {known : Finset String} {descent : Descent}
    {progress : Progress} {file : String} (agrees : Agrees known descent progress)
    (unprocessed : file ∉ descent.processed) :
    AgreesWith known (visit task known file 0 descent) (traverse task file progress) := by
  rcases entered : enter task 0 file progress with ⟨after, failure | opened⟩
  · rw [traverse_of_error entered]
    exact visit_of_failed agrees unprocessed entered
  · obtain ⟨next, agreed, visited⟩ :=
      exists_visit_eq_of_entered agrees unprocessed (entered_of_enter entered)
    rw [visited, traverse_of_enter entered]
    exact agreesWith_run task known agreed opened.toList

/-- Visits several files in turn, each at depth zero. -/
def visitAll (task : Task) (known : Finset String) (descent : Descent) :
    List String → Descent × Option Failure
  | [] => (descent, none)
  | file :: files =>
      andThen (visit task known file 0 descent) fun next => visitAll task known next files

private theorem agreesWith_traverseAll (task : Task) {known : Finset String} {descent : Descent}
    {progress : Progress} (agrees : Agrees known descent progress) {files : List String}
    (inside : ∀ file ∈ files, file ∈ known) :
    AgreesWith known (visitAll task known descent files) (traverseAll task progress files) := by
  induction files generalizing descent progress with
  | nil => exact ⟨agrees, rfl⟩
  | cons file files ih =>
      have others : ∀ other ∈ files, other ∈ known :=
        fun other member => inside other (List.mem_cons_of_mem file member)
      rw [visitAll, traverseAll]
      by_cases fresh : file ∈ progress.fresh
      · have unseen := ((agrees.fresh file).mp fresh).2
        obtain ⟨agreed, ended⟩ := agreesWith_traverse task agrees unseen
        rw [if_pos fresh]
        rcases traversed : traverse task file progress with ⟨after, _ | failure⟩ <;>
          rcases visited : visit task known file 0 descent with ⟨next, _ | other⟩ <;>
            rw [traversed, visited] at agreed ended
        · exact ih agreed others
        · cases ended
        · cases ended
        · exact ⟨agreed, ended⟩
      · have seen : file ∈ descent.processed := by
          by_contra unseen
          exact fresh ((agrees.fresh file).mpr ⟨inside file List.mem_cons_self, unseen⟩)
        rw [if_neg fresh, visit_eq, if_pos seen]
        exact ih agrees others

private theorem visitAll_singleton (task : Task) (known : Finset String) (descent : Descent)
    (file : String) :
    visitAll task known descent [file] = visit task known file 0 descent := by
  rw [visitAll]
  exact andThen_pure _

/-- The descent from the files that a build starts from, if these can be told. -/
def visitPoints (task : Task) (known : Finset String) :
    Except Failure (List String) → Descent × Option Failure
  | .error failure => (start, some failure)
  | .ok points => visitAll task known start points

private theorem Agrees.note {known : Finset String} {descent : Descent} {progress : Progress}
    (agrees : Agrees known descent progress) (notice : Notice) :
    Agrees known descent (progress.note notice) :=
  ⟨agrees.graph, (Progress.operations_note progress notice).trans agrees.operations, agrees.fresh⟩

private theorem agreesWith_fromStart (task : Task) {known : Finset String} (name : String)
    {progress : Progress} (agrees : Agrees known start progress) :
    AgreesWith known
      (visitPoints task known ((startPoint? task.project name).map Option.toList))
      (fromStart task name progress) := by
  rcases fromStart_cases task name progress with ⟨failure, unknown, whole⟩ |
    ⟨notice, missing, whole⟩ | ⟨point, notice, found, whole⟩
  · rw [unknown, whole]
    exact ⟨agrees, rfl⟩
  · rw [missing, whole]
    exact ⟨agrees.note notice, rfl⟩
  · rw [found, whole]
    have agreed := agreesWith_traverse task (agrees.note notice) (Finset.notMem_empty point)
    rwa [← visitAll_singleton] at agreed

private theorem agreesWith_traversal (task : Task) (name : Option String) {files : List String}
    {progress : Progress} (agrees : Agrees files.toFinset start progress) :
    AgreesWith files.toFinset
      (visitPoints task files.toFinset (startingPoints task.project name files))
      (traversal task name files progress) := by
  rcases traversal_cases task name files progress with ⟨points, whole⟩ | ⟨start, points, whole⟩
  · rw [points, whole]
    exact agreesWith_traverseAll task (agrees.note .processingAll)
      fun file member => List.mem_toFinset.mpr member
  · rw [points, whole]
    exact agreesWith_fromStart task start agrees

private theorem agrees_opening (project : Project) (request : BuildRequest) (found : List Notice)
    (files : List String) :
    Agrees files.toFinset start (opening project request found files) where
  graph := Progress.graph_noteAll _ _
  operations := Progress.operations_noteAll _ _
  fresh file := by
    rw [opening, Progress.fresh_noteAll, List.mem_toFinset]
    exact (and_iff_left (Finset.notMem_empty file)).symm

end Descent

/-- Builds by recursive descent: discovers the files of a project and visits the
starting points in turn. -/
def descend (project : Project) (request : BuildRequest) : Descent × Option Failure :=
  match (project.tree.discover request.filter project.root).2 with
  | .error failure => (Descent.start, some failure)
  | .ok files =>
      Descent.visitPoints ⟨project, request.limit⟩ files.toFinset
        (startingPoints project request.startFile files)

/-- A build leaves the graph that the visits of its starting points leave, and ends as they
end. -/
theorem build_eq_visitPoints {project : Project} {request : BuildRequest} {files : List String}
    (discovery : (project.tree.discover request.filter project.root).2 = .ok files) :
    let built := build project request Store.empty
    let visited := Descent.visitPoints ⟨project, request.limit⟩ files.toFinset
      (startingPoints project request.startFile files)
    built.store.graph = visited.1.graph ∧ built.failure = visited.2 := by
  intro built visited
  rcases all : project.tree.discover request.filter project.root with ⟨notices, outcome⟩
  rw [all] at discovery
  cases discovery
  obtain ⟨agrees, ended⟩ := Descent.agreesWith_traversal ⟨project, request.limit⟩
    request.startFile (Descent.agrees_opening project request notices files)
  obtain ⟨graph, -, failed⟩ := build_eq_traversal all
  exact ⟨graph.trans agrees.graph, failed.trans ended.symm⟩

/-- A build from a start file leaves the graph that a visit of it leaves. -/
theorem graph_build_eq_visit {project : Project} {request : BuildRequest} {files : List String}
    {start point : String}
    (discovery : (project.tree.discover request.filter project.root).2 = .ok files)
    (named : request.startFile = some start) (nonempty : start ≠ "")
    (found : startPoint? project start = .ok (some point)) :
    (build project request Store.empty).store.graph =
      (Descent.visit ⟨project, request.limit⟩ files.toFinset point 0 Descent.start).1.graph := by
  have points : startingPoints project request.startFile files = .ok [point] := by
    rw [named, startingPoints, if_neg nonempty, found]
    rfl
  rw [(build_eq_visitPoints discovery).1, points, ← Descent.visitAll_singleton]
  rfl

/-- A build into the empty store asks for the same changes in the same order as the
recursive descent does, ends as it ends, and so leaves the same graph: the files,
the nodes and the edges come in the order in which the descent meets them. -/
theorem build_eq_descent (project : Project) (request : BuildRequest) :
    let built := build project request Store.empty
    let descent := descend project request
    built.operations = descent.1.operations ∧ built.failure = descent.2 ∧
      built.store.graph = Graph.empty.replay descent.1.operations := by
  intro built descent
  rcases discovery : project.tree.discover request.filter project.root with
    ⟨found, failure | files⟩
  · obtain ⟨graph, operations, failed⟩ := build_eq_of_error discovery
    have whole : descent = (Descent.start, some failure) := by
      simp only [descent, descend, discovery]
    rw [whole]
    exact ⟨operations, failed, graph⟩
  · obtain ⟨graph, operations, failed⟩ := build_eq_traversal discovery
    have whole : descent = Descent.visitPoints ⟨project, request.limit⟩ files.toFinset
        (startingPoints project request.startFile files) := by
      simp only [descent, descend, discovery]
    obtain ⟨agrees, ended⟩ := Descent.agreesWith_traversal ⟨project, request.limit⟩
      request.startFile (Descent.agrees_opening project request found files)
    rw [whole]
    exact ⟨operations.trans agrees.operations, failed.trans ended.symm, graph.trans agrees.graph⟩

end Build

end ModuleAtlas
