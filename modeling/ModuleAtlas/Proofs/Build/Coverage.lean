import Mathlib.Order.Bounds.Basic
import ModuleAtlas.Proofs.Build.Steps
import ModuleAtlas.Proofs.FileTree.Reach

/-! # Which files a build scans

Every scanned file is reached from a starting point along internal edges between
scanned files, and a discovered file that is no longer fresh was scanned if it can
be (`ModuleAtlas.Build.Covers`). Without a depth limit no internal edge leads to a
fresh file either (`ModuleAtlas.Build.Settled`), so a build scans the least set of
files that holds its starting points and is closed under its internal edges into
discovered files (`ModuleAtlas.Build.Unfolds.isLeast_scanned`).
-/

namespace ModuleAtlas

namespace Project

/-- A file of a project is a regular file. -/
def IsRegular (project : Project) (file : String) : Prop :=
  project.tree.isFile? (project.fullPath file) = .ok true

/-- A file of a project can be read and decoded. -/
def IsReadable (project : Project) (file : String) : Prop :=
  ∃ text, project.tree.readText (project.fullPath file) = .ok text

/-- References come from a text that was read. -/
theorem exists_text_of_ofPath {project : Project} {file : String} {references : List String}
    (read : Reference.ofPath project.tree (project.fullPath file) = .ok references) :
    ∃ text, project.tree.readText (project.fullPath file) = .ok text ∧
      references = Reference.extract text := by
  unfold Reference.ofPath at read
  cases decoded : project.tree.readText (project.fullPath file) with
  | error failure =>
      rw [decoded] at read
      cases read
  | ok text =>
      rw [decoded] at read
      cases read
      exact ⟨text, rfl, rfl⟩

private theorem isReadable_of_ofPath {project : Project} {file : String} {references : List String}
    (read : Reference.ofPath project.tree (project.fullPath file) = .ok references) :
    project.IsReadable file := by
  obtain ⟨text, decoded, -⟩ := exists_text_of_ofPath read
  exact ⟨text, decoded⟩

private theorem not_isReadable_of_ofPath {project : Project} {file : String} {failure : Failure}
    (read : Reference.ofPath project.tree (project.fullPath file) = .error failure) :
    ¬ project.IsReadable file := by
  rintro ⟨text, readable⟩
  rw [Reference.ofPath, readable] at read
  cases read

end Project

/-- The verdict on a reference adds no file. -/
theorem Verdict.addedFiles_operations (file : String) (verdict : Verdict) :
    (verdict.operations file).filterMap Operation.addedFile? = [] := by
  cases verdict <;> rfl

/-- An internal edge between two scanned files. -/
def Graph.JoinsScanned (graph : Graph) (source target : String) : Prop :=
  source ∈ graph.scanned ∧ target ∈ graph.scanned ∧ graph.HasInternalEdge source target

/-- A path between scanned files stays one when files and edges are added. -/
theorem Graph.joinsScanned_path_mono {before after : Graph} {source target : String}
    (scanned : before.scanned ⊆ after.scanned) (edges : before.edges ⊆ after.edges)
    (path : Relation.ReflTransGen before.JoinsScanned source target) :
    Relation.ReflTransGen after.JoinsScanned source target := by
  induction path with
  | refl => exact .refl
  | tail _ joined ih => exact ih.tail ⟨scanned joined.1, scanned joined.2.1, edges joined.2.2⟩

namespace Build

/-- What holds at every stage of a traversal that knows some files: a fresh file is
known and unscanned, a known file that is neither fresh nor scanned cannot be
scanned, and every scanned file was reached from a starting point. -/
structure Covers (project : Project) (points known : List String) (progress : Progress)
    (frames : List Frame) : Prop where
  fresh : ∀ file ∈ progress.fresh, file ∈ known ∧ file ∉ progress.graph.scanned
  origin : ∀ file ∈ progress.graph.scanned, file ∈ points ∨ file ∈ known
  scannable : ∀ file ∈ progress.graph.scanned, project.IsRegular file ∧ project.IsReadable file
  opened : ∀ file ∈ progress.graph.scanned, file ∈ progress.openings
  stale : ∀ file ∈ known, file ∉ progress.fresh → project.IsRegular file →
    project.IsReadable file → file ∈ progress.graph.scanned
  frames : ∀ frame ∈ frames, frame.file ∈ progress.graph.scanned
  reached : ∀ file ∈ progress.graph.scanned, ∃ point ∈ points,
    Relation.ReflTransGen progress.graph.JoinsScanned point file
  added : progress.operations.filterMap Operation.addedFile? = progress.graph.scanned

section Preservation

variable {task : Task} {points known : List String} {before after : Progress}
  {frames : List Frame} {file reference : String} {depth : Nat}

/-- Dropping a frame keeps the cover. -/
theorem Covers.close {frame : Frame}
    (covers : Covers task.project points known before (frame :: frames)) :
    Covers task.project points known before frames :=
  { covers with frames := fun other member => covers.frames other (List.mem_cons_of_mem _ member) }

/-- A file that cannot be scanned may be left behind. -/
theorem Covers.leave (covers : Covers task.project points known before frames)
    (unscannable : task.project.IsRegular file → ¬ task.project.IsReadable file)
    (graph : after.graph = before.graph) (fresh : after.fresh = before.fresh.filter (· ≠ file))
    (operations : after.operations = before.operations)
    (openings : before.openings ⊆ after.openings) :
    Covers task.project points known after frames := by
  constructor
  case fresh =>
    intro other member
    rw [graph]
    exact covers.fresh other (List.mem_filter.mp (fresh ▸ member)).1
  case stale =>
    intro other listed left regular readable
    rw [fresh, List.mem_filter, decide_eq_true_eq, not_and, Decidable.not_not] at left
    rw [graph]
    by_cases waiting : other ∈ before.fresh
    · cases left waiting
      exact absurd readable (unscannable regular)
    · exact covers.stale other listed waiting regular readable
  case opened =>
    rw [graph]
    exact fun other member => openings (covers.opened other member)
  case added => rw [operations, graph, covers.added]
  all_goals rw [graph]
  · exact covers.origin
  · exact covers.scannable
  · exact covers.frames
  · exact covers.reached

/-- A file that is opened is a starting point, or the target of an internal edge
that leaves a scanned file. -/
theorem Covers.open {references : List String}
    (covers : Covers task.project points known before frames)
    (unscanned : file ∉ before.graph.scanned) (listed : file ∈ points ∨ file ∈ known)
    (led : file ∈ points ∨
      ∃ source ∈ before.graph.scanned, before.graph.HasInternalEdge source file)
    (regular : task.project.IsRegular file) (readable : task.project.IsReadable file)
    (graph : after.graph = before.graph.addFile file)
    (fresh : after.fresh = before.fresh.filter (· ≠ file))
    (operations : after.operations = before.operations ++ [.addFile file])
    (openings : after.openings = before.openings ++ [file]) :
    Covers task.project points known after (⟨file, depth, references⟩ :: frames) := by
  have scanned : after.graph.scanned = before.graph.scanned ++ [file] := by
    rw [graph, Graph.scanned_addFile_of_notMem unscanned]
  have edges : after.graph.edges = before.graph.edges := by rw [graph, Graph.edges_addFile]
  have old : before.graph.scanned ⊆ after.graph.scanned := by
    rw [scanned]
    exact List.subset_append_left _ _
  have new : file ∈ after.graph.scanned := by simp [scanned]
  have cases : ∀ other ∈ after.graph.scanned, other ∈ before.graph.scanned ∨ other = file := by
    intro other member
    simpa only [scanned, List.mem_append, List.mem_cons, List.not_mem_nil, or_false] using member
  have kept : before.graph.edges ⊆ after.graph.edges := by
    rw [edges]
    exact List.Subset.refl _
  constructor
  case fresh =>
    intro other member
    rw [fresh, List.mem_filter, decide_eq_true_eq] at member
    obtain ⟨isKnown, waiting⟩ := covers.fresh other member.1
    exact ⟨isKnown, fun again => (cases other again).elim waiting member.2⟩
  case origin =>
    intro other member
    rcases cases other member with earlier | rfl
    · exact covers.origin other earlier
    · exact listed
  case scannable =>
    intro other member
    rcases cases other member with earlier | rfl
    · exact covers.scannable other earlier
    · exact ⟨regular, readable⟩
  case opened =>
    intro other member
    rw [openings]
    rcases cases other member with earlier | rfl
    · exact List.mem_append_left _ (covers.opened other earlier)
    · exact List.mem_append_right _ (List.mem_singleton_self _)
  case stale =>
    intro other isKnown left isRegular isReadable
    rw [fresh, List.mem_filter, decide_eq_true_eq, not_and, Decidable.not_not] at left
    by_cases waiting : other ∈ before.fresh
    · exact left waiting ▸ new
    · exact old (covers.stale other isKnown waiting isRegular isReadable)
  case frames =>
    intro frame member
    rcases List.mem_cons.mp member with rfl | earlier
    · exact new
    · exact old (covers.frames frame earlier)
  case reached =>
    intro other member
    -- Paths to earlier files stay; the new file is the end of one, or a start itself.
    rcases cases other member with earlier | rfl
    · obtain ⟨point, chosen, path⟩ := covers.reached other earlier
      exact ⟨point, chosen, Graph.joinsScanned_path_mono old kept path⟩
    · rcases led with chosen | ⟨source, leaves, edge⟩
      · exact ⟨other, chosen, .refl⟩
      · obtain ⟨point, chosen, path⟩ := covers.reached source leaves
        exact ⟨point, chosen, (Graph.joinsScanned_path_mono old kept path).tail
          ⟨old leaves, new, kept edge⟩⟩
  case added =>
    rw [operations, List.filterMap_append, covers.added, scanned]
    rfl

/-- Entering a listed file that some scanned file leads to keeps the cover. -/
theorem Covers.enter {opened : Option Frame}
    (covers : Covers task.project points known before frames)
    (unscanned : file ∉ before.graph.scanned) (listed : file ∈ points ∨ file ∈ known)
    (led : file ∈ points ∨
      ∃ source ∈ before.graph.scanned, before.graph.HasInternalEdge source file)
    (entered : Entered task depth file before after opened) :
    Covers task.project points known after (opened.toList ++ frames) := by
  cases entered with
  | beyond _ graph fresh operations openings =>
      constructor
      case fresh => rw [fresh, graph]; exact covers.fresh
      case stale => rw [fresh, graph]; exact covers.stale
      case opened => rw [graph, openings]; exact covers.opened
      case added => rw [operations, graph]; exact covers.added
      all_goals rw [graph]
      · exact covers.origin
      · exact covers.scannable
      · exact covers.frames
      · exact covers.reached
  | irregular _ irregular graph fresh operations openings =>
      have unscannable : task.project.IsRegular file → ¬ task.project.IsReadable file := by
        intro regular
        cases regular.symm.trans irregular
      exact covers.leave unscannable graph fresh operations (by rw [openings]; exact fun _ => id)
  | unreadable _ _ read graph fresh operations openings =>
      exact covers.leave (fun _ => Project.not_isReadable_of_ofPath read) graph fresh operations
        (by rw [openings]; exact List.subset_append_left _ _)
  | opened _ regular read graph fresh operations openings =>
      exact covers.open unscanned listed led regular (Project.isReadable_of_ofPath read) graph
        fresh operations openings

/-- Taking up a reference keeps the cover. -/
theorem Covers.record {references : List String} {target : Option String}
    (covers : Covers task.project points known before
      (⟨file, depth, reference :: references⟩ :: frames))
    (recorded : Recorded task file reference before after target) :
    Covers task.project points known after (⟨file, depth, references⟩ :: frames) := by
  have scanned := recorded.scanned
  constructor
  case fresh => rw [recorded.fresh, scanned]; exact covers.fresh
  case stale => rw [recorded.fresh, scanned]; exact covers.stale
  case opened => rw [scanned, recorded.openings]; exact covers.opened
  case origin => rw [scanned]; exact covers.origin
  case scannable => rw [scanned]; exact covers.scannable
  case frames =>
    intro frame member
    rw [scanned]
    rcases List.mem_cons.mp member with rfl | outer
    · exact covers.frames ⟨file, depth, reference :: references⟩ List.mem_cons_self
    · exact covers.frames frame (List.mem_cons_of_mem _ outer)
  case reached =>
    intro other member
    obtain ⟨point, chosen, path⟩ := covers.reached other (scanned ▸ member)
    refine ⟨point, chosen, Graph.joinsScanned_path_mono ?_ (fun _ => recorded.mem_edges) path⟩
    rw [scanned]
    exact List.Subset.refl _
  case added =>
    rw [recorded.operations, List.filterMap_append, Verdict.addedFiles_operations,
      List.append_nil, scanned, covers.added]

/-- A file still fresh, and any file before the first opening, is unscanned. -/
theorem Covers.notMem_scanned (covers : Covers task.project points known before frames)
    (first : file ∈ before.fresh ∨ before.openings = []) : file ∉ before.graph.scanned := by
  intro scanned
  rcases first with fresh | unopened
  · exact (covers.fresh file fresh).2 scanned
  · have opened := covers.opened file scanned
    rw [unopened] at opened
    cases opened

/-- A step of a traversal keeps what is known of the scanned files. -/
theorem covers_step {state next : Progress × List Frame}
    (covers : Covers task.project points known state.1 state.2)
    (step : Step task points state next) :
    Covers task.project points known next.1 next.2 := by
  cases step with
  | start chosen first entered =>
      rw [← List.append_nil (Option.toList _)]
      exact covers.enter (covers.notMem_scanned first) (Or.inl chosen) (Or.inl chosen) entered
  | close => exact covers.close
  | pass depth references frames recorded => exact covers.record recorded
  | descend references frames recorded fresh entered =>
      have noted := covers.record recorded
      obtain ⟨isKnown, unscanned⟩ := noted.fresh _ (recorded.fresh ▸ fresh)
      exact noted.enter unscanned (Or.inr isKnown)
        (Or.inr ⟨_, noted.frames _ List.mem_cons_self, recorded.hasInternalEdge⟩) entered

/-- An empty graph is covered before the first step. -/
theorem covers_start (project : Project) (points : List String)
    (empty : before.graph = Graph.empty) (unasked : before.operations = []) :
    Covers project points before.fresh before [] := by
  have unscanned : before.graph.scanned = [] := by
    rw [empty]
    rfl
  constructor
  case fresh => exact fun file member => ⟨member, unscanned ▸ List.not_mem_nil⟩
  case stale => exact fun file listed left => absurd listed left
  case added => rw [unasked, unscanned, List.filterMap_nil]
  all_goals simp [unscanned]

/-- A cover holds along every run of steps. -/
theorem covers_steps {state last : Progress × List Frame}
    (covers : Covers task.project points known state.1 state.2)
    (steps : Steps task points state last) : Covers task.project points known last.1 last.2 := by
  induction steps with
  | refl => exact covers
  | tail _ step ih => exact covers_step ih step

/-- No internal edge leads to a fresh file. -/
def Settled (progress : Progress) : Prop :=
  ∀ source target, progress.graph.HasInternalEdge source target → target ∉ progress.fresh

/-- A file entered within the limit is fresh no more. -/
theorem Entered.notMem_fresh {opened : Option Frame}
    (entered : Entered task depth file before after opened)
    (within : task.limit.isExceededBy depth = .ok false) : file ∉ after.fresh := by
  cases entered with
  | beyond limit => cases within.symm.trans limit
  | irregular _ _ _ fresh => simp [fresh]
  | unreadable _ _ _ _ fresh => simp [fresh]
  | opened _ _ _ _ fresh => simp [fresh]

private theorem settled_step {state next : Progress × List Frame}
    (unlimited : task.limit = .unlimited)
    (settled : Settled state.1) (step : Step task points state next) : Settled next.1 := by
  intro source target edge
  cases step with
  | start _ _ entered =>
      intro fresh
      rw [Graph.HasInternalEdge, entered.edges] at edge
      exact settled source target edge (entered.fresh_of_mem fresh)
  | close => exact settled source target edge
  | pass depth references frames recorded stale =>
      rw [recorded.fresh]
      rcases recorded.mem_edges_cases edge with old | ⟨-, new⟩
      · exact settled source target old
      · exact stale target (new rfl)
  | descend references frames recorded fresh entered =>
      intro waiting
      rw [Graph.HasInternalEdge, entered.edges] at edge
      -- Without a limit, the target of the new edge is entered at once.
      rcases recorded.mem_edges_cases edge with old | ⟨-, new⟩
      · exact settled source target old (recorded.fresh ▸ entered.fresh_of_mem waiting)
      · cases new rfl
        exact entered.notMem_fresh (by rw [unlimited]; rfl) waiting

private theorem settled_steps {state last : Progress × List Frame}
    (unlimited : task.limit = .unlimited)
    (settled : Settled state.1) (steps : Steps task points state last) : Settled last.1 := by
  induction steps with
  | refl => exact settled
  | tail _ step ih => exact settled_step unlimited ih step

/-- A step scans no fewer files and makes no file fresh again. -/
theorem subset_of_step {state next : Progress × List Frame} (step : Step task points state next) :
    state.1.graph.scanned ⊆ next.1.graph.scanned ∧ next.1.fresh ⊆ state.1.fresh := by
  cases step with
  | start _ _ entered =>
      exact ⟨fun _ old => entered.mem_scanned.mpr (Or.inl old), fun _ => entered.fresh_of_mem⟩
  | close => exact ⟨List.Subset.refl _, List.Subset.refl _⟩
  | pass depth references frames recorded =>
      dsimp only
      rw [recorded.scanned, recorded.fresh]
      exact ⟨List.Subset.refl _, List.Subset.refl _⟩
  | descend references frames recorded fresh entered =>
      refine ⟨fun _ old => entered.mem_scanned.mpr (Or.inl ?_), fun _ waiting => ?_⟩
      · rw [recorded.scanned]
        exact old
      · exact recorded.fresh ▸ entered.fresh_of_mem waiting

/-- Along a run the scanned files only grow and the fresh ones only shrink. -/
theorem subset_of_steps {state last : Progress × List Frame}
    (steps : Steps task points state last) :
    state.1.graph.scanned ⊆ last.1.graph.scanned ∧ last.1.fresh ⊆ state.1.fresh := by
  induction steps with
  | refl => exact ⟨List.Subset.refl _, List.Subset.refl _⟩
  | tail _ step ih =>
      obtain ⟨scanned, fresh⟩ := subset_of_step step
      exact ⟨List.Subset.trans ih.1 scanned, List.Subset.trans fresh ih.2⟩

/-- A traversal loses no scanned file. -/
theorem scanned_subset_run (comparable : task.limit.Comparable) (progress : Progress)
    (frames : List Frame) :
    progress.graph.scanned ⊆ (run task progress frames).1.graph.scanned := by
  obtain ⟨final, done, steps⟩ := exists_steps_of_run task [] comparable progress frames
  rw [done]
  exact (subset_of_steps steps).1

/-- Going through a list of files loses no scanned file. -/
theorem scanned_subset_traverseAll (task : Task) (progress : Progress) (files : List String) :
    progress.graph.scanned ⊆ (traverseAll task progress files).1.graph.scanned := by
  obtain ⟨final, steps, same, -⟩ := traverseAll_cases task files (fun _ member => member)
    (fun _ member => member) progress
  rw [same.graph]
  exact (subset_of_steps steps).1

/-- A file that was tried within the limit is scanned if it can be. -/
theorem Tried.mem_scanned (tried : Tried task points known file after)
    (within : task.limit.isExceededBy 0 = .ok false)
    (covers : Covers task.project points known after [])
    (regular : task.project.IsRegular file) (readable : task.project.IsReadable file) :
    file ∈ after.graph.scanned := by
  cases tried with
  | entered entered rest =>
      refine (subset_of_steps rest).1 (entered.mem_scanned.mpr (Or.inr ?_))
      cases entered with
      | beyond limit => cases within.symm.trans limit
      | irregular _ irregular => cases regular.symm.trans irregular
      | unreadable _ _ read => exact absurd readable (Project.not_isReadable_of_ofPath read)
      | opened => exact ⟨rfl, rfl⟩
  | stale listed stale rest =>
      exact covers.stale file listed (fun fresh => stale ((subset_of_steps rest).2 fresh)) regular
        readable

end Preservation

/-- Without a start file the starting points are the discovered files. -/
theorem startsFrom_of_unnamed {project : Project} {request : BuildRequest}
    (unnamed : request.startFile.getD "" = "") :
    startsFrom project request = discovered project request := by
  unfold startsFrom startingPoints
  cases named : request.startFile with
  | none => rfl
  | some start =>
      rw [named, Option.getD_some] at unnamed
      dsimp only
      rw [if_pos unnamed]
      rfl

/-- A start file that is found is the only starting point. -/
theorem startsFrom_of_named {project : Project} {request : BuildRequest} {start point : String}
    (named : request.startFile = some start) (nonempty : start ≠ "")
    (found : startPoint? project start = .ok (some point)) :
    startsFrom project request = [point] := by
  unfold startsFrom startingPoints
  rw [named]
  dsimp only
  rw [if_neg nonempty, found]
  rfl

/-- A start file is a regular file under the name that it has below the root. -/
theorem isRegular_of_startPoint? {project : Project} {start point : String}
    (found : startPoint? project start = .ok (some point)) : project.IsRegular point := by
  unfold startPoint? at found
  dsimp only at found
  split at found
  · cases found
  · next parts regular below =>
      cases found
      have spelled := Path.join_relativeText_of_relativeTo? below
      rw [Project.IsRegular, Project.fullPath, spelled]
      exact regular
  · cases found

private theorem traverse_succeeds (task : Task) {file : String} {regular : Bool}
    (comparable : task.limit.Comparable)
    (probed : task.project.tree.isFile? (task.project.fullPath file) = .ok regular)
    (progress : Progress) : (traverse task file progress).2 = none := by
  cases failed : (traverse task file progress).2 with
  | none => rfl
  | some failure => cases probed.symm.trans (isFile?_of_traverse_failed comparable failed)

private theorem fromStart_succeeds (task : Task) {start point : String}
    (comparable : task.limit.Comparable) (found : startPoint? task.project start = .ok (some point))
    (progress : Progress) :
    (fromStart task start progress).2 = none := by
  rcases fromStart_cases task start progress with ⟨_, unknown, -⟩ | ⟨_, missing, -⟩ |
    ⟨other, notice, same, whole⟩
  · cases found.symm.trans unknown
  · cases found.symm.trans missing
  · rw [whole]
    exact traverse_succeeds task comparable (isRegular_of_startPoint? same) _

/-- A build from a regular file below the root succeeds if its files can be
discovered and its limit can be compared. -/
theorem failure_eq_none_of_startPoint? {project : Project} {request : BuildRequest}
    {files : List String} {start point : String} (comparable : request.limit.Comparable)
    (discovery : (project.tree.discover request.filter project.root).2 = .ok files)
    (named : request.startFile = some start) (nonempty : start ≠ "")
    (found : startPoint? project start = .ok (some point)) :
    (build project request Store.empty).failure = none := by
  rcases all : project.tree.discover request.filter project.root with ⟨notices, outcome⟩
  rw [all] at discovery
  cases discovery
  obtain ⟨-, -, ended⟩ := build_eq_traversal all
  rw [ended, named]
  have whole : traversal ⟨project, request.limit⟩ (some start) files
      (opening project request notices files) =
        fromStart ⟨project, request.limit⟩ start (opening project request notices files) :=
    if_neg nonempty
  rw [whole]
  exact fromStart_succeeds ⟨project, request.limit⟩ comparable found _

/-- A set of files holds a start file that can be read, and is closed under the
internal edges of a graph into discovered files that can be scanned. -/
structure IsClosed (project : Project) (known : List String) (graph : Graph) (point : String)
    (files : Set String) : Prop where
  start : project.IsReadable point → point ∈ files
  edge : ∀ source ∈ files, ∀ target ∈ known, graph.HasInternalEdge source target →
    project.IsRegular target → project.IsReadable target → target ∈ files

/-- A closed set of files holds every file that a path between scanned files leads to. -/
theorem IsClosed.mem_of_path {project : Project} {known : List String} {progress : Progress}
    {point file : String} {files : Set String}
    (closed : IsClosed project known progress.graph point files)
    (covers : Covers project [point] known progress [])
    (scanned : file ∈ progress.graph.scanned)
    (path : Relation.ReflTransGen progress.graph.JoinsScanned point file) : file ∈ files := by
  have started : point ∈ files := by
    apply closed.start
    rcases path.cases_head with rfl | ⟨next, joined, -⟩
    · exact (covers.scannable point scanned).2
    · exact (covers.scannable point joined.1).2
  clear scanned
  induction path with
  | refl => exact started
  | @tail source target _ joined ih =>
      obtain ⟨-, scanned, edge⟩ := joined
      obtain ⟨regular, readable⟩ := covers.scannable target scanned
      rcases covers.origin target scanned with chosen | isKnown
      · rw [List.mem_singleton.mp chosen]
        exact started
      · exact closed.edge source ih target isKnown edge regular readable

section Ending

variable {project : Project} {request : BuildRequest} {first final : Progress}

/-- The last progress of a build is covered by its starting points and what it discovered. -/
theorem Unfolds.covers (unfolds : Unfolds project request first final) :
    Covers project (startsFrom project request) (discovered project request) final [] := by
  have covers := covers_start project (startsFrom project request) unfolds.graph
    unfolds.operations
  rw [unfolds.fresh] at covers
  exact covers_steps covers unfolds.steps

/-- An unlimited build leaves no internal edge to a fresh file. -/
theorem Unfolds.settled (unlimited : request.limit = .unlimited)
    (unfolds : Unfolds project request first final) : Settled final := by
  have settled : Settled first := by
    intro source target edge
    rw [unfolds.graph] at edge
    cases edge
  exact settled_steps unlimited settled unfolds.steps

/-- An unlimited build that succeeds scans every readable starting point. -/
theorem Unfolds.mem_scanned {file : String} (unlimited : request.limit = .unlimited)
    (unfolds : Unfolds project request first final)
    (succeeded : (build project request Store.empty).failure = none)
    (chosen : file ∈ startsFrom project request) (regular : project.IsRegular file)
    (readable : project.IsReadable file) : file ∈ final.graph.scanned := by
  have within : request.limit.isExceededBy 0 = .ok false := by
    rw [unlimited]
    rfl
  exact (unfolds.tried succeeded file chosen).mem_scanned within unfolds.covers regular readable

/-- The scanned files are the least set that holds the start file, if it can be
read, and is closed under internal edges into discovered files. -/
theorem Unfolds.isLeast_scanned {point : String} (unlimited : request.limit = .unlimited)
    (unfolds : Unfolds project request first final) (starts : startsFrom project request = [point])
    (started : project.IsReadable point → point ∈ final.graph.scanned) :
    IsLeast {files | IsClosed project (discovered project request) final.graph point files}
      {file | file ∈ final.graph.scanned} := by
  have covers := unfolds.covers
  constructor
  · refine ⟨started, fun source _ target isKnown edge regular readable => ?_⟩
    exact covers.stale target isKnown (unfolds.settled unlimited source target edge) regular
      readable
  · intro files closed file scanned
    obtain ⟨point, chosen, path⟩ := covers.reached file scanned
    rw [starts] at chosen covers
    cases List.mem_singleton.mp chosen
    exact closed.mem_of_path covers scanned path

end Ending

/-- A scanned file was discovered, or is the start file. -/
theorem mem_scanned_cases {project : Project} {request : BuildRequest} {file : String}
    (scanned : file ∈ (build project request Store.empty).store.graph.scanned) :
    file ∈ discovered project request ∨
      ∃ start, request.startFile = some start ∧ startPoint? project start = .ok (some file) := by
  obtain ⟨first, final, unfolds⟩ := exists_unfolds project request
  rw [unfolds.store] at scanned
  rcases unfolds.covers.origin file scanned with chosen | listed
  · exact mem_startsFrom_cases chosen
  · exact Or.inl listed

/-- A build scans a start file that can be read, if its limit lets it go there. -/
theorem mem_scanned_of_startPoint? {project : Project} {request : BuildRequest}
    {files : List String} {start point : String} (within : request.limit.isExceededBy 0 = .ok false)
    (discovery : (project.tree.discover request.filter project.root).2 = .ok files)
    (named : request.startFile = some start) (nonempty : start ≠ "")
    (found : startPoint? project start = .ok (some point)) (readable : project.IsReadable point) :
    point ∈ (build project request Store.empty).store.graph.scanned := by
  have comparable := DepthLimit.comparable_of_isExceededBy within
  have succeeded := failure_eq_none_of_startPoint? comparable discovery named nonempty found
  have starts := startsFrom_of_named named nonempty found
  obtain ⟨first, final, unfolds⟩ := exists_unfolds project request
  have tried := unfolds.tried succeeded point (starts ▸ List.mem_singleton_self point)
  rw [unfolds.store]
  exact tried.mem_scanned within unfolds.covers (isRegular_of_startPoint? found) readable

end Build

end ModuleAtlas
