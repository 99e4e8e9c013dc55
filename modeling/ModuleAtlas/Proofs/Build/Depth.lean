import Mathlib.Data.List.Chain
import ModuleAtlas.Proofs.Build.Dependencies
import ModuleAtlas.Proofs.Build.Descent
import ModuleAtlas.Proofs.Discovery

/-! # How far a build with a depth limit goes

Every scanned file is expanded once, at the depth at which the traversal first met it,
and the build reports that depth. A file at some depth ends a path of imports from the
start file with as many edges, since it was met from a file one less deep
(`ModuleAtlas.Build.Layered`), so nothing beyond the limit is scanned. The imports of a
file that is less deep than the limit are all followed (`ModuleAtlas.Build.Exhausted`).
Those of a file at the limit are not, even if a shorter path leads to it. So the last
file of a path of imports within the limit is scanned unless the traversal met a file
inside the path at the limit (`ModuleAtlas.Build.scanned_within_depth`).
-/

namespace ModuleAtlas

namespace Project

/-- A reference in the text of one file stands for an internal dependency on another. -/
def Imports (project : Project) (source target : String) : Prop :=
  ∃ text, project.tree.readText (project.fullPath source) = .ok text ∧
    (target, false) ∈ project.entries source (Reference.extract text)

/-- A path of imports from a file, all of it readable and after the first file among
the known ones. -/
structure IsImportPath (project : Project) (known : List String) (point : String)
    (path : List String) : Prop where
  head : path.head? = some point
  chain : path.IsChain project.Imports
  readable : ∀ file ∈ path, project.IsReadable file
  listed : ∀ file ∈ path.tail, file ∈ known

private theorem isImportPath_singleton {project : Project} {point : String} (known : List String)
    (readable : project.IsReadable point) : project.IsImportPath known point [point] := by
  refine ⟨rfl, List.isChain_singleton point, fun file member => ?_, List.forall_mem_nil _⟩
  rw [List.mem_singleton.mp member]
  exact readable

/-- A path of imports goes on to a known file that its last file imports. -/
theorem isImportPath_concat_iff {project : Project} {known path : List String}
    {point last file : String} (ends : path.getLast? = some last) :
    project.IsImportPath known point (path ++ [file]) ↔
      project.IsImportPath known point path ∧ project.Imports last file ∧
        project.IsReadable file ∧ file ∈ known := by
  have nonempty : path ≠ [] := by
    rintro rfl
    cases ends
  have tail : (path ++ [file]).tail = path.tail ++ [file] := List.tail_append_of_ne_nil nonempty
  constructor
  · rintro ⟨head, chain, readable, listed⟩
    rw [List.head?_append_of_ne_nil _ nonempty] at head
    rw [tail] at listed
    obtain ⟨inner, -, joined⟩ := List.isChain_append.mp chain
    exact ⟨⟨head, inner, fun other member => readable other (List.mem_append_left _ member),
      fun other member => listed other (List.mem_append_left _ member)⟩,
      joined last ends file rfl, readable file List.mem_concat_self,
          listed file List.mem_concat_self⟩
  · rintro ⟨⟨head, chain, readable, listed⟩, imports, isReadable, isKnown⟩
    constructor
    case head => rwa [List.head?_append_of_ne_nil _ nonempty]
    case chain =>
      refine List.isChain_append.mpr ⟨chain, List.isChain_singleton file, ?_⟩
      intro before isLast after isFirst
      rw [ends] at isLast
      cases isLast
      cases isFirst
      exact imports
    case readable =>
      intro other member
      rcases List.mem_append.mp member with inner | new
      · exact readable other inner
      · exact List.mem_singleton.mp new ▸ isReadable
    case listed =>
      intro other member
      rw [tail] at member
      rcases List.mem_append.mp member with inner | new
      · exact listed other inner
      · exact List.mem_singleton.mp new ▸ isKnown

private theorem Imports.isRegular {project : Project} {source target : String}
    (imports : project.Imports source target) : project.IsRegular target := by
  obtain ⟨text, -, member⟩ := imports
  obtain ⟨reference, -, entry⟩ := List.mem_filterMap.mp (mem_of_mem_firstPerTarget member)
  exact isFile?_of_dependency? entry

end Project

namespace Build

/-- The file that an event reports to be expanded, and its depth. -/
def Event.expansion? : Event → Option (String × Nat)
  | .notice (.processing _ file depth) => some (file, depth)
  | _ => none

/-- The files expanded so far, each with its depth. -/
def Progress.depths (progress : Progress) : List (String × Nat) :=
  progress.events.filterMap Event.expansion?

/-- The files that a build expanded, each with its depth. -/
def depths (build : Build) : List (String × Nat) := build.events.filterMap Event.expansion?

namespace Progress

private theorem depths_record (progress : Progress) (event : Event) :
    (progress.record event).depths = progress.depths ++ event.expansion?.toList :=
  filterMap_events_record Event.expansion? progress event

private theorem depths_note {notice : Notice} (silent : (Event.notice notice).expansion? = none)
    (progress : Progress) : (progress.note notice).depths = progress.depths := by
  rw [note, depths_record, silent, Option.toList_none, List.append_nil]

private theorem depths_noteAll {notices : List Notice}
    (silent : ∀ notice ∈ notices, (Event.notice notice).expansion? = none) (progress : Progress) :
    (progress.noteAll notices).depths = progress.depths := by
  induction notices generalizing progress with
  | nil => rfl
  | cons notice notices ih =>
      have later := ih (fun other member => silent other (List.mem_cons_of_mem notice member))
        (progress.note notice)
      exact later.trans (depths_note (silent notice List.mem_cons_self) progress)

private theorem depths_perform (progress : Progress) (operation : Operation) :
    (progress.perform operation).depths = progress.depths :=
  (depths_record progress (.operation operation)).trans (List.append_nil _)

end Progress

private theorem expansion?_pathVerdict (project : Project) (reference : String)
    (resolution : Resolution) :
    ∀ notice ∈ (project.pathVerdict reference resolution).1,
      (Event.notice notice).expansion? = none := by
  unfold Project.pathVerdict
  dsimp only
  split
  · simp only [List.mem_cons, List.not_mem_nil, or_false, Event.expansion?, forall_eq]
  · split <;> simp [Event.expansion?]
  · split <;> simp [Event.expansion?]

/-- What is reported of a reference is no expansion. -/
theorem expansion?_verdict (project : Project) (file reference : String) :
    ∀ notice ∈ (project.verdict file reference).1, (Event.notice notice).expansion? = none := by
  simp only [Project.verdict, List.mem_cons, forall_eq_or_imp]
  refine ⟨rfl, ?_⟩
  split
  · exact expansion?_pathVerdict project reference _
  · split <;> simp [Event.expansion?]

private theorem depths_addReference {task : Task} {file reference : String}
    {before after : Progress} {target : Option String}
    (added : addReference task file reference before = (after, target)) :
    after.depths = before.depths := by
  have silent := expansion?_verdict task.project file reference
  rcases judged : task.project.verdict file reference with ⟨notices, verdict⟩
  rw [judged] at silent
  have noted := Progress.depths_noteAll silent before
  simp only [addReference, judged] at added
  cases verdict with
  | dropped =>
      cases added
      exact noted
  | external id =>
      cases added
      rw [Progress.depths_perform, noted]
  | internal found =>
      dsimp only at added
      split at added
      · cases added
        rw [Progress.depths_note rfl, Progress.depths_perform, noted]
      · cases added
        rw [Progress.depths_perform, noted]

/-- Entering a file reports its depth if it is opened. -/
theorem depths_enter {task : Task} {depth : Nat} {file : String} {before after : Progress}
    {opened : Option Frame} (entered : enter task depth file before = (after, .ok opened)) :
    after.depths = before.depths ++ opened.toList.map fun frame => (frame.file, frame.depth) := by
  have started : ((before.enter file).record (.opened file)).depths = before.depths :=
    (Progress.depths_record _ _).trans (List.append_nil _)
  simp only [enter] at entered
  split at entered
  · cases entered
  · cases entered
    rw [Progress.depths_note rfl]
    exact (List.append_nil _).symm
  · split at entered
    · cases entered
    · cases entered
      exact (List.append_nil _).symm
    · split at entered
      · cases entered
        rw [Progress.depths_note rfl, started]
        exact (List.append_nil _).symm
      · cases entered
        rw [Progress.note, Progress.depths_record, Progress.depths_perform,
          Progress.depths_note rfl, started]
        rfl

/-- What holds of the depths at every stage of a traversal from one file: each scanned
file has one, the first is the start file with none, and every other file was met from a
file that imports it and is one less deep. -/
structure Layered (bound : Nat) (point : String) (known : List String) (progress : Progress)
    (frames : List Frame) : Prop where
  scanned : progress.depths.map Prod.fst = progress.graph.scanned
  frames : ∀ frame ∈ frames, (frame.file, frame.depth) ∈ progress.depths
  bounded : ∀ entry ∈ progress.depths, entry.2 ≤ bound
  first : ∀ entry ∈ progress.depths.head?, entry = (point, 0)
  led : ∀ entry ∈ progress.depths, entry = (point, 0) ∨
    entry.1 ∈ known ∧ ∃ importer ∈ progress.depths,
      progress.graph.HasInternalEdge importer.1 entry.1 ∧ entry.2 = importer.2 + 1

/-- No import of a file that is less deep than the limit leads to a fresh file. -/
def Exhausted (bound : Nat) (progress : Progress) : Prop :=
  ∀ entry ∈ progress.depths, entry.2 < bound → ∀ target,
    progress.graph.HasInternalEdge entry.1 target → target ∉ progress.fresh

section Preservation

variable {task : Task} {bound : Nat} {point file reference : String} {known : List String}
  {before between after : Progress} {frames : List Frame} {depth : Nat} {opened : Option Frame}

private theorem Layered.depth_eq {left right : Nat}
    (layered : Layered bound point known before frames)
    (isLeft : (file, left) ∈ before.depths) (isRight : (file, right) ∈ before.depths) :
    left = right := by
  have distinct : (before.depths.map Prod.fst).Nodup := layered.scanned ▸ before.graph.scanned_nodup
  exact congrArg Prod.snd (List.inj_on_of_nodup_map distinct isLeft isRight rfl)

private theorem Layered.close {frame : Frame}
    (layered : Layered bound point known before (frame :: frames)) :
    Layered bound point known before frames :=
  { layered with
    frames := fun other member => layered.frames other (List.mem_cons_of_mem frame member) }

private theorem Layered.record {references : List String} {target : Option String}
    (layered : Layered bound point known before (⟨file, depth, reference :: references⟩ :: frames))
    (added : addReference task file reference before = (after, target)) :
    Layered bound point known after (⟨file, depth, references⟩ :: frames) := by
  have recorded := recorded_addReference added
  have same := depths_addReference added
  constructor
  case scanned => rw [same, recorded.scanned, layered.scanned]
  case frames =>
    intro frame member
    rw [same]
    rcases List.mem_cons.mp member with rfl | outer
    · exact layered.frames ⟨file, depth, reference :: references⟩ List.mem_cons_self
    · exact layered.frames frame (List.mem_cons_of_mem _ outer)
  case bounded => rw [same]; exact layered.bounded
  case first => rw [same]; exact layered.first
  case led =>
    intro entry member
    rw [same] at member ⊢
    rcases layered.led entry member with start | ⟨isKnown, importer, listed, edge, deeper⟩
    · exact Or.inl start
    · exact Or.inr ⟨isKnown, importer, listed, recorded.mem_edges edge, deeper⟩

private theorem Layered.keep (layered : Layered bound point known before frames)
    (depths : after.depths = before.depths) (graph : after.graph = before.graph) :
    Layered bound point known after frames := by
  refine ⟨?_, ?_, ?_, ?_, ?_⟩
  · rw [depths, graph, layered.scanned]
  · rw [depths]
    exact layered.frames
  · rw [depths]
    exact layered.bounded
  · rw [depths]
    exact layered.first
  · rw [depths, graph]
    exact layered.led

/-- A file that is opened is the start file, or it is met from a file one less deep. -/
theorem Layered.enter (layered : Layered bound point known before frames)
    (limit : task.limit = .atMost bound) (unscanned : file ∉ before.graph.scanned)
    (led : (before.depths = [] ∧ (file, depth) = (point, 0)) ∨
      file ∈ known ∧ ∃ importer ∈ before.depths,
        before.graph.HasInternalEdge importer.1 file ∧ depth = importer.2 + 1)
    (entered : enter task depth file before = (after, .ok opened)) :
    Layered bound point known after (opened.toList ++ frames) := by
  have effect := entered_of_enter entered
  have grown := depths_enter entered
  cases effect with
  | opened within _ _ graph =>
      have fits : depth ≤ bound := by
        rw [limit, DepthLimit.isExceededBy, Except.ok.injEq, decide_eq_false_iff_not] at within
        omega
      have kept : ∀ {source target}, before.graph.HasInternalEdge source target →
          after.graph.HasInternalEdge source target := by
        intro source target edge
        rw [graph, Graph.HasInternalEdge, Graph.edges_addFile]
        exact edge
      rw [Option.toList_some, List.map_singleton] at grown
      constructor
      case scanned =>
        rw [grown, graph, Graph.scanned_addFile_of_notMem unscanned, List.map_append,
          layered.scanned]
        rfl
      case frames =>
        intro frame member
        rw [grown]
        rcases List.mem_cons.mp member with rfl | outer
        · exact List.mem_append_right _ (List.mem_singleton_self _)
        · exact List.mem_append_left _ (layered.frames frame outer)
      case bounded =>
        intro entry member
        rw [grown] at member
        rcases List.mem_append.mp member with old | new
        · exact layered.bounded entry old
        · rw [List.mem_singleton.mp new]
          exact fits
      case first =>
        intro entry head
        rw [grown] at head
        rcases led with ⟨none, start⟩ | ⟨-, importer, listed, -⟩
        · rw [none, start] at head
          exact (Option.some.inj head).symm
        · rw [List.head?_append_of_ne_nil _ (List.ne_nil_of_mem listed)] at head
          exact layered.first entry head
      case led =>
        intro entry member
        rw [grown] at member ⊢
        rcases List.mem_append.mp member with old | new
        · rcases layered.led entry old with start | ⟨isKnown, importer, listed, edge, deeper⟩
          · exact Or.inl start
          · exact Or.inr ⟨isKnown, importer, List.mem_append_left _ listed, kept edge, deeper⟩
        · rw [List.mem_singleton.mp new]
          rcases led with ⟨-, start⟩ | ⟨isKnown, importer, listed, edge, deeper⟩
          · exact Or.inl start
          · exact Or.inr ⟨isKnown, importer, List.mem_append_left _ listed, kept edge, deeper⟩
  | beyond _ graph => exact layered.keep (grown.trans (List.append_nil _)) graph
  | irregular _ _ graph => exact layered.keep (grown.trans (List.append_nil _)) graph
  | unreadable _ _ _ graph => exact layered.keep (grown.trans (List.append_nil _)) graph

private theorem Entered.file_eq {frame : Frame}
    (entered : Entered task depth file before after opened)
    (isOpened : frame ∈ opened.toList) : frame.file = file := by
  cases entered with
  | opened => rw [List.mem_singleton.mp isOpened]
  | _ => cases isOpened

private theorem exhausted_pass {target : Option String} (exhausted : Exhausted bound before)
    (added : addReference task file reference before = (after, target))
    (stale : ∀ next ∈ target, next ∉ after.fresh) : Exhausted bound after := by
  have recorded := recorded_addReference added
  intro entry member shallow next edge
  rw [depths_addReference added] at member
  rcases recorded.mem_edges_cases edge with old | ⟨-, new⟩
  · rw [recorded.fresh]
    exact exhausted entry member shallow next old
  · exact stale next (new rfl)

/-- The file that a reference leads to is no longer fresh once it was entered, unless
the importing file is at the limit. A file that was just opened has no imports yet. -/
theorem exhausted_descend {next : String} (exhausted : Exhausted bound before)
    (layered : Layered bound point known between frames)
    (records : Records task.project between frames) (limit : task.limit = .atMost bound)
    (framed : (file, depth) ∈ between.depths)
    (added : addReference task file reference before = (between, some next))
    (unscanned : next ∉ between.graph.scanned)
    (entered : enter task (depth + 1) next between = (after, .ok opened)) :
    Exhausted bound after := by
  have recorded := recorded_addReference added
  have effect := entered_of_enter entered
  intro entry member shallow target edge waiting
  rw [Graph.HasInternalEdge, effect.edges] at edge
  rw [depths_enter entered, List.mem_append] at member
  rcases member with old | new
  · rcases recorded.mem_edges_cases edge with earlier | ⟨leaves, led⟩
    · have fresh := recorded.fresh ▸ effect.fresh_of_mem waiting
      exact exhausted entry (depths_addReference added ▸ old) shallow target earlier fresh
    · cases led rfl
      -- The importing file has one depth only, which is less than the limit.
      have leaving : entry.1 = file := leaves
      have same : entry.2 = depth := layered.depth_eq (leaving ▸ old) framed
      refine effect.notMem_fresh ?_ waiting
      rw [limit, DepthLimit.isExceededBy, Except.ok.injEq, decide_eq_false_iff_not]
      omega
  · obtain ⟨frame, isOpened, rfl⟩ := List.mem_map.mp new
    have leaving : frame.file ∈ between.graph.scanned := records.sources _ edge
    exact unscanned (effect.file_eq isOpened ▸ leaving)

/-- All that is kept along a traversal from one file with a depth limit. -/
structure Surveys (task : Task) (bound : Nat) (point : String) (known : List String)
    (progress : Progress) (frames : List Frame) : Prop where
  covers : Covers task.project [point] known progress frames
  records : Records task.project progress frames
  layered : Layered bound point known progress frames
  exhausted : Exhausted bound progress

private theorem Surveys.pass {references : List String} {target : Option String}
    (surveys : Surveys task bound point known before
      (⟨file, depth, reference :: references⟩ :: frames))
    (added : addReference task file reference before = (after, target))
    (stale : ∀ next ∈ target, next ∉ after.fresh) :
    Surveys task bound point known after (⟨file, depth, references⟩ :: frames) := by
  have recorded := recorded_addReference added
  have scanned : file ∈ before.graph.scanned := surveys.covers.frames _ List.mem_cons_self
  exact ⟨surveys.covers.record recorded, surveys.records.record scanned recorded,
    surveys.layered.record added, exhausted_pass surveys.exhausted added stale⟩

private theorem Surveys.descend {references : List String} {next : String}
    (surveys : Surveys task bound point known before
      (⟨file, depth, reference :: references⟩ :: frames))
    (limit : task.limit = .atMost bound)
    (added : addReference task file reference before = (between, some next))
    (fresh : next ∈ between.fresh)
    (entered : Build.enter task (depth + 1) next between = (after, .ok opened)) :
    Surveys task bound point known after
      (opened.toList ++ ⟨file, depth, references⟩ :: frames) := by
  have recorded := recorded_addReference added
  have effect := entered_of_enter entered
  have edge := recorded.hasInternalEdge
  have scanned : file ∈ before.graph.scanned := surveys.covers.frames _ List.mem_cons_self
  have covers := surveys.covers.record recorded
  have records := surveys.records.record scanned recorded
  have layered := surveys.layered.record added
  have framed : (file, depth) ∈ between.depths := layered.frames _ List.mem_cons_self
  obtain ⟨isKnown, unscanned⟩ := covers.fresh next fresh
  exact
    { covers := covers.enter unscanned (Or.inr isKnown)
        (Or.inr ⟨file, covers.frames _ List.mem_cons_self, edge⟩) effect
      records := records.enter covers unscanned effect
      layered := layered.enter limit unscanned
        (Or.inr ⟨isKnown, (file, depth), framed, edge, rfl⟩) entered
      exhausted := exhausted_descend surveys.exhausted layered records limit framed added
        unscanned entered }

/-- A traversal with a depth limit runs to an empty stack and keeps its survey. -/
theorem surveys_run (limit : task.limit = .atMost bound)
    (surveys : Surveys task bound point known before frames) :
    ∃ final, run task before frames = (final, none) ∧
      Surveys task bound point known final [] := by
  have comparable : task.limit.Comparable := by
    rw [limit]
    exact fun _ => ⟨_, rfl⟩
  induction before, frames using run_induction task with
  | nil progress => exact ⟨progress, run_nil task progress, surveys⟩
  | close progress file depth frames ih =>
      rw [run_close]
      exact ih ⟨surveys.covers.close, surveys.records.close, surveys.layered.close,
        surveys.exhausted⟩
  | pass depth references frames added stale ih =>
      rw [run_pass added stale]
      exact ih (surveys.pass added stale)
  | fail depth references frames added fresh failed =>
      exact absurd failed (enter_ne_error comparable (recorded_addReference added))
  | descend depth references frames added fresh entered ih =>
      rw [run_descend added fresh entered]
      exact ih (surveys.descend limit added fresh entered)

private theorem surveys_start (task : Task) (bound : Nat) (point : String)
    (empty : before.graph = Graph.empty) (unasked : before.operations = [])
    (unexpanded : before.depths = []) : Surveys task bound point before.fresh before [] where
  covers := covers_start task.project [point] empty unasked
  records := records_start task.project empty
  layered := by
    refine ⟨?_, ?_, ?_, ?_, ?_⟩
    · rw [unexpanded, empty]
      rfl
    · exact fun frame member => absurd member List.not_mem_nil
    all_goals
      rw [unexpanded]
      simp
  exhausted := by
    intro entry member
    rw [unexpanded] at member
    cases member

private theorem surveys_traverse (limit : task.limit = .atMost bound)
    (regular : task.project.IsRegular point) (empty : before.graph = Graph.empty)
    (unasked : before.operations = []) (unexpanded : before.depths = []) :
    ∃ final, traverse task point before = (final, none) ∧
      Surveys task bound point before.fresh final [] := by
  have start := surveys_start task bound point empty unasked unexpanded
  have unscanned : point ∉ before.graph.scanned := by
    rw [empty]
    exact List.not_mem_nil
  rcases entered : enter task 0 point before with ⟨after, failure | opened⟩
  · rcases enter_eq_error entered with ⟨incomparable, -⟩ | ⟨-, unprobed, -⟩
    · rw [limit] at incomparable
      cases incomparable
    · cases regular.symm.trans unprobed
  · have effect := entered_of_enter entered
    have surveys : Surveys task bound point before.fresh after (opened.toList ++ []) :=
      { covers := start.covers.enter unscanned (Or.inl (List.mem_singleton_self point))
          (Or.inl (List.mem_singleton_self point)) effect
        records := start.records.enter start.covers unscanned effect
        layered := start.layered.enter limit unscanned (Or.inl ⟨unexpanded, rfl⟩) entered
        exhausted := by
          intro entry _ _ target edge
          rw [Graph.HasInternalEdge, effect.edges, empty] at edge
          cases edge }
    rw [List.append_nil] at surveys
    obtain ⟨final, done, ended⟩ := surveys_run limit surveys
    exact ⟨final, (traverse_of_enter entered).trans done, ended⟩

end Preservation

/-- What a build reports before its traversal is no expansion. -/
theorem expansion?_opening (project : Project) (request : BuildRequest) :
    ∀ notice ∈ openingNotices project request ++
        (project.tree.discover request.filter project.root).1,
      (Event.notice notice).expansion? = none := by
  intro notice member
  rcases List.mem_append.mp member with opening | found
  · rcases List.mem_append.mp opening with fixed | limited
    · simp only [List.mem_cons, List.not_mem_nil, or_false] at fixed
      rcases fixed with rfl | rfl | rfl <;> rfl
    · obtain ⟨shown, -, rfl⟩ := List.mem_map.mp limited
      rfl
  · cases (project.tree.sound_discover request.filter project.root).2 notice found <;> rfl

/-- A build from a start file with a depth limit ends with a survey of what it scanned. -/
theorem exists_surveys_build {project : Project} {request : BuildRequest} {bound : Nat}
    {start point : String} (limit : request.limit = .atMost bound)
    (named : request.startFile = some start) (nonempty : start ≠ "")
    (found : startPoint? project start = .ok (some point)) :
    ∃ final, (build project request Store.empty).store.graph = final.graph ∧
      (build project request Store.empty).depths = final.depths ∧
      Surveys ⟨project, request.limit⟩ bound point (discovered project request) final [] := by
  rcases discovery : project.tree.discover request.filter project.root with
    ⟨notices, failure | files⟩
  · have silent := expansion?_opening project request
    rw [discovery] at silent
    have none := discovered_of_error (congrArg Prod.snd discovery)
    have start : Surveys ⟨project, request.limit⟩ bound point (Progress.mk Graph.empty [] []).fresh
        ⟨Graph.empty, [], []⟩ [] := surveys_start _ bound point rfl rfl rfl
    rw [build_eq_stopped discovery, none]
    refine ⟨⟨Graph.empty, [], []⟩, rfl, ?_, start⟩
    rw [depths, List.filterMap_map]
    exact List.filterMap_eq_nil_iff.mpr silent
  · have silent := expansion?_opening project request
    rw [discovery] at silent
    have all := discovered_of_ok (congrArg Prod.snd discovery)
    have fresh : (opening project request notices files).fresh = files :=
      Progress.fresh_noteAll _ _
    have unexpanded : (opening project request notices files).depths = [] :=
      Progress.depths_noteAll silent _
    have unasked : (opening project request notices files).operations = [] :=
      Progress.operations_noteAll _ _
    obtain ⟨final, done, surveys⟩ := @surveys_traverse ⟨project, request.limit⟩ bound point
      ((opening project request notices files).note (.startingFrom point)) limit
      (isRegular_of_startPoint? found) (Progress.graph_noteAll _ _)
      ((Progress.operations_note _ _).trans unasked)
      ((Progress.depths_note rfl _).trans unexpanded)
    have whole : traversal ⟨project, request.limit⟩ request.startFile files
        (opening project request notices files) = (final, none) := by
      have chosen : traversal ⟨project, request.limit⟩ (some start) files
          (opening project request notices files) =
            fromStart ⟨project, request.limit⟩ start (opening project request notices files) :=
        if_neg nonempty
      rw [named, chosen]
      exact (@fromStart_of_startPoint? ⟨project, request.limit⟩ start point found _).trans done
    rw [build_eq_ended discovery, whole, all, ← fresh]
    exact ⟨final, rfl, Progress.depths_note rfl final, surveys⟩

section Ending

variable {task : Task} {bound : Nat} {point source target file : String} {known : List String}
  {final : Progress}

/-- When a traversal has ended, a scanned file has an edge to each file that it imports,
and to no other. -/
theorem Surveys.hasInternalEdge_iff (surveys : Surveys task bound point known final [])
    (scanned : source ∈ final.graph.scanned) :
    final.graph.HasInternalEdge source target ↔ task.project.Imports source target := by
  obtain ⟨references, read, whole⟩ := surveys.records.finished source scanned List.not_mem_nil
  obtain ⟨text, decoded, rfl⟩ := Project.exists_text_of_ofPath read
  rw [Graph.hasInternalEdge_iff_mem_dependencies, whole]
  constructor
  · exact fun member => ⟨text, decoded, member⟩
  · rintro ⟨same, reread, member⟩
    cases decoded.symm.trans reread
    exact member

/-- A file that was expanded at some depth is scanned. -/
theorem Surveys.mem_scanned {depth : Nat} (surveys : Surveys task bound point known final [])
    (expanded : (file, depth) ∈ final.depths) : file ∈ final.graph.scanned :=
  surveys.layered.scanned ▸ List.mem_map_of_mem expanded

/-- A scanned file was expanded at some depth. -/
theorem Surveys.exists_depth (surveys : Surveys task bound point known final [])
    (scanned : file ∈ final.graph.scanned) : ∃ depth, (file, depth) ∈ final.depths := by
  rw [← surveys.layered.scanned] at scanned
  obtain ⟨⟨name, depth⟩, expanded, same⟩ := List.mem_map.mp scanned
  cases same
  exact ⟨depth, expanded⟩

private theorem Surveys.depth_start {depth : Nat}
    (surveys : Surveys task bound point known final [])
    (expanded : (point, depth) ∈ final.depths) : depth = 0 := by
  obtain ⟨first, rest, whole⟩ := List.exists_cons_of_ne_nil (List.ne_nil_of_mem expanded)
  have start : (point, 0) ∈ final.depths := by
    have same := surveys.layered.first first (by rw [whole]; rfl)
    rw [whole, ← same]
    exact List.mem_cons_self
  exact surveys.layered.depth_eq expanded start

/-- A file at some depth ends a path of imports with as many edges. -/
theorem Surveys.exists_path (surveys : Surveys task bound point known final []) {depth : Nat}
    (expanded : (file, depth) ∈ final.depths) :
    ∃ path, task.project.IsImportPath known point path ∧ path.getLast? = some file ∧
      path.length = depth + 1 := by
  induction depth generalizing file with
  | zero =>
      have readable := (surveys.covers.scannable file (surveys.mem_scanned expanded)).2
      rcases surveys.layered.led (file, 0) expanded with start | ⟨-, importer, -, -, deeper⟩
      · cases start
        exact ⟨[point], Project.isImportPath_singleton known readable, rfl, rfl⟩
      · cases deeper
  | succ depth ih =>
      have readable := (surveys.covers.scannable file (surveys.mem_scanned expanded)).2
      rcases surveys.layered.led (file, depth + 1) expanded with start | ⟨isKnown,
        ⟨importer, above⟩, listed, edge, deeper⟩
      · cases start
      · cases Nat.succ.inj deeper
        obtain ⟨path, isPath, last, length⟩ := ih listed
        have imports := (surveys.hasInternalEdge_iff (surveys.mem_scanned listed)).mp edge
        refine ⟨path ++ [file], ?_, List.getLast?_concat, by simp [length]⟩
        exact (Project.isImportPath_concat_iff last).mpr ⟨isPath, imports, readable, isKnown⟩

/-- The last file of a path of imports within the limit is scanned, unless a file
inside the path was met at the limit. The induction goes along the path: the imports of
a file on it are followed as long as the file is less deep than the limit. -/
theorem Surveys.mem_scanned_or (surveys : Surveys task bound point known final [])
    (started : point ∈ final.graph.scanned) {path : List String}
    (isPath : task.project.IsImportPath known point path) (ends : path.getLast? = some file)
    (short : path.length ≤ bound + 1) :
    file ∈ final.graph.scanned ∨
      ∃ earlier ∈ path.tail.dropLast, (earlier, bound) ∈ final.depths := by
  induction path using List.reverseRecOn generalizing file with
  | nil => cases ends
  | append_singleton path next ih =>
      rw [List.getLast?_concat] at ends
      cases ends
      cases before : path.getLast? with
      | none =>
          rw [List.getLast?_eq_none_iff] at before
          subst before
          cases isPath.head
          exact Or.inl started
      | some last =>
          have nonempty : path ≠ [] := by
            rintro rfl
            cases before
          obtain ⟨inner, imports, readable, isKnown⟩ :=
            (Project.isImportPath_concat_iff before).mp isPath
          rw [List.length_append, List.length_singleton] at short
          rw [List.tail_append_of_ne_nil nonempty, List.dropLast_concat]
          rcases ih inner before (by omega) with scanned | ⟨earlier, inside, deep⟩
          · obtain ⟨depth, expanded⟩ := surveys.exists_depth scanned
            rcases Nat.lt_or_eq_of_le (surveys.layered.bounded _ expanded) with shallow | deep
            · have edge := (surveys.hasInternalEdge_iff scanned).mpr imports
              have stale := surveys.exhausted _ expanded shallow next edge
              exact Or.inl (surveys.covers.stale next isKnown stale imports.isRegular readable)
            · have atLimit : (last, bound) ∈ final.depths := deep ▸ expanded
              refine Or.inr ⟨last, ?_, atLimit⟩
              -- The start file is at the limit only if the path ends there.
              cases path with
              | nil => cases before
              | cons first rest =>
                  cases rest with
                  | nil =>
                      cases inner.head
                      cases before
                      have none := surveys.depth_start atLimit
                      rw [List.length_singleton] at short
                      omega
                  | cons second rest =>
                      rw [List.getLast?_cons_cons] at before
                      exact List.mem_of_getLast? before
          · exact Or.inr ⟨earlier, (List.dropLast_sublist _).subset inside, deep⟩

end Ending

/-- A build from a start file with a depth limit expands each scanned file once, at a
depth within the limit, and the file ends a path of imports from the start file with as
many edges. Of a path of imports within the limit, the last file is scanned if it was
discovered, unless a file strictly inside the path was expanded at the limit: the imports
of such a file are recorded and not followed, and it is not expanded again where a
shorter path meets it. -/
theorem scanned_within_depth (project : Project) (request : BuildRequest) (bound : Nat)
    (start point : String) (limit : request.limit = .atMost bound)
    (named : request.startFile = some start) (nonempty : start ≠ "")
    (found : startPoint? project start = .ok (some point)) :
    let built := build project request Store.empty
    let known := discovered project request
    built.depths.map Prod.fst = built.store.graph.scanned ∧
      (∀ file depth, (file, depth) ∈ built.depths → depth ≤ bound ∧
        ∃ path, project.IsImportPath known point path ∧ path.getLast? = some file ∧
          path.length = depth + 1) ∧
      ∀ path file, project.IsImportPath known point path → path.getLast? = some file →
        file ∈ known → path.length ≤ bound + 1 →
          file ∈ built.store.graph.scanned ∨
            ∃ earlier ∈ path.tail.dropLast, (earlier, bound) ∈ built.depths := by
  intro built known
  obtain ⟨final, graph, expanded, surveys⟩ :=
    exists_surveys_build limit named nonempty found
  have store : built.store.graph = final.graph := graph
  have depths : built.depths = final.depths := expanded
  rw [store, depths]
  refine ⟨surveys.layered.scanned, fun file depth member => ?_,
    fun path file isPath ends listed short => ?_⟩
  · exact ⟨surveys.layered.bounded _ member, surveys.exists_path member⟩
  · have started : point ∈ final.graph.scanned := by
      have within : request.limit.isExceededBy 0 = .ok false := by
        rw [limit]
        exact DepthLimit.isExceededBy_zero _
      obtain ⟨files, discovery, -⟩ := exists_discover_of_mem listed
      rw [← store]
      exact mem_scanned_of_startPoint? within discovery named nonempty found
        (isPath.readable point (List.mem_of_mem_head? isPath.head))
    exact surveys.mem_scanned_or started isPath ends short

/-- A file that imports two others, the first of which imports the second, and a file
behind the second. -/
def shortcutProject : Project where
  tree := .ofEntries
    [(["p"], .directory true true),
     (["p", "s.js"], .file "import './a.js'import './c.js'".toUTF8.toList true),
     (["p", "a.js"], .file "import './c.js'".toUTF8.toList true),
     (["p", "c.js"], .file "import './e.js'".toUTF8.toList true),
     (["p", "e.js"], .file [] true)]
  root := projectRoot
  policy := .strict

/-- The scripts of a project with a long way and a short cut to one file. -/
theorem child_shortcutProject :
    shortcutProject.Child "s.js" (.file "import './a.js'import './c.js'".toUTF8.toList true) ∧
      shortcutProject.Child "a.js" (.file "import './c.js'".toUTF8.toList true) ∧
      shortcutProject.Child "c.js" (.file "import './e.js'".toUTF8.toList true) ∧
      shortcutProject.Child "e.js" (.file [] true) := by
  have opened : shortcutProject.tree.IsOpen ["p"] := by decide
  exact ⟨⟨rfl, opened, rfl, by decide +kernel⟩, ⟨rfl, opened, rfl, by decide +kernel⟩,
    ⟨rfl, opened, rfl, by decide +kernel⟩, ⟨rfl, opened, rfl, by decide +kernel⟩⟩

private theorem readText_shortcutProject :
    shortcutProject.tree.readText (shortcutProject.fullPath "s.js") =
        .ok "import './a.js'import './c.js'" ∧
      shortcutProject.tree.readText (shortcutProject.fullPath "a.js") = .ok "import './c.js'" ∧
      shortcutProject.tree.readText (shortcutProject.fullPath "c.js") = .ok "import './e.js'" ∧
      shortcutProject.tree.readText (shortcutProject.fullPath "e.js") = .ok "" := by
  obtain ⟨start, first, second, last⟩ := child_shortcutProject
  rw [start.readText (Text.Utf8.decode_toUTF8 _), first.readText (Text.Utf8.decode_toUTF8 _),
    second.readText (Text.Utf8.decode_toUTF8 _), last.readText rfl]
  exact ⟨by cbv, by cbv, by cbv, rfl⟩

private theorem dependency?_shortcutProject :
    shortcutProject.dependency? "s.js" "./a.js" = some ("a.js", false) ∧
      shortcutProject.dependency? "s.js" "./c.js" = some ("c.js", false) ∧
      shortcutProject.dependency? "a.js" "./c.js" = some ("c.js", false) ∧
      shortcutProject.dependency? "c.js" "./e.js" = some ("e.js", false) := by
  obtain ⟨start, first, second, last⟩ := child_shortcutProject
  exact ⟨start.dependency?_sibling first (by decide +kernel),
    start.dependency?_sibling second (by decide +kernel),
    first.dependency?_sibling second (by decide +kernel),
    second.dependency?_sibling last (by decide +kernel)⟩

private theorem discover_shortcutProject :
    (shortcutProject.tree.discover {} shortcutProject.root).2 =
      .ok ["a.js", "c.js", "e.js", "s.js"] := by cbv

private theorem references?_shortcutProject :
    shortcutProject.references? "s.js" = .ok (some ["./a.js", "./c.js"]) ∧
      shortcutProject.references? "a.js" = .ok (some ["./c.js"]) ∧
      shortcutProject.references? "c.js" = .ok (some ["./e.js"]) := by
  obtain ⟨start, first, second, -⟩ := child_shortcutProject
  obtain ⟨readStart, readFirst, readSecond, -⟩ := readText_shortcutProject
  have extracted :
      Reference.extract "import './a.js'import './c.js'" = ["./a.js", "./c.js"] ∧
        Reference.extract "import './c.js'" = ["./c.js"] ∧
        Reference.extract "import './e.js'" = ["./e.js"] := by decide +kernel
  rw [Project.references?_of_regular start.isRegular,
    Project.references?_of_regular first.isRegular,
    Project.references?_of_regular second.isRegular, Reference.ofPath, Reference.ofPath,
    Reference.ofPath, readStart, readFirst, readSecond]
  dsimp only [Except.map, Except.toOption]
  rw [extracted.1, extracted.2.1, extracted.2.2]
  exact ⟨rfl, rfl, rfl⟩

/-- With a limit of two, the file behind the second import is not scanned: the traversal
meets the second import through the first, at the limit. -/
theorem scanned_shortcutProject :
    (build shortcutProject { startFile := some "s.js", limit := .atMost 2 }
      Store.empty).store.graph.scanned = ["s.js", "a.js", "c.js"] := by
  obtain ⟨toFirst, toSecond, throughFirst, behind⟩ := dependency?_shortcutProject
  obtain ⟨readStart, readFirst, readSecond⟩ := references?_shortcutProject
  rw [← Project.verdict_eq_internal_iff] at toFirst toSecond throughFirst behind
  have within : ∀ depth ≤ 2, (DepthLimit.atMost 2).isExceededBy depth = .ok false := by decide
  have beyond : (DepthLimit.atMost 2).isExceededBy 3 = .ok true := by decide
  let task : Task := ⟨shortcutProject, .atMost 2⟩
  let known : Finset String := ["a.js", "c.js", "e.js", "s.js"].toFinset
  have visited := @graph_build_eq_visit shortcutProject
    { startFile := some "s.js", limit := .atMost 2 } _ "s.js" "s.js" discover_shortcutProject rfl
    (by decide) child_shortcutProject.1.startPoint?
  rw [visited]
  -- The descent goes through the first import to the second, where the limit is reached.
  rw [@Descent.visit_of_references task known "s.js" 0 _ _ (by decide +kernel)
      (within 0 (by decide)) readStart, Descent.expand_cons,
    @Descent.follow_of_internal task known "s.js" "./a.js" "a.js" _ toFirst (by decide +kernel)
      (by decide +kernel),
    @Descent.visit_of_references task known "a.js" 1 _ _ (by decide +kernel) (within 1 (by decide))
      readFirst, Descent.expand_cons,
    @Descent.follow_of_internal task known "a.js" "./c.js" "c.js" _ throughFirst
      (by decide +kernel) (by decide +kernel),
    @Descent.visit_of_references task known "c.js" 2 _ _ (by decide +kernel) (within 2 (by decide))
      readSecond, Descent.expand_cons,
    @Descent.follow_of_internal task known "c.js" "./e.js" "e.js" _ behind
      (by decide +kernel) (by decide +kernel),
    @Descent.visit_of_beyond task known "e.js" 3 _ beyond]
  -- Back at the start file, the second import was processed already.
  simp only [Descent.andThen, Descent.expand_nil]
  rw [Descent.expand_cons,
    @Descent.follow_of_internal task known "s.js" "./c.js" "c.js" _ toSecond (by decide +kernel)
      (by decide +kernel),
    @Descent.visit_of_processed task known "c.js" 1 _ (by decide +kernel)]
  simp only [Descent.andThen, Descent.expand_nil]
  decide +kernel

private theorem isImportPath_shortcutProject :
    shortcutProject.IsImportPath ["a.js", "c.js", "e.js", "s.js"] "s.js"
      ["s.js", "c.js", "e.js"] := by
  obtain ⟨toFirst, toSecond, -, behind⟩ := dependency?_shortcutProject
  obtain ⟨readStart, -, readSecond, readLast⟩ := readText_shortcutProject
  have fromStart : shortcutProject.Imports "s.js" "c.js" := by
    have extracted : Reference.extract "import './a.js'import './c.js'" = ["./a.js", "./c.js"] := by
      decide +kernel
    refine ⟨_, readStart, ?_⟩
    rw [extracted, Project.entries, List.filterMap_cons_some toFirst,
      List.filterMap_cons_some toSecond]
    decide
  have fromSecond : shortcutProject.Imports "c.js" "e.js" := by
    have extracted : Reference.extract "import './e.js'" = ["./e.js"] := by decide +kernel
    refine ⟨_, readSecond, ?_⟩
    rw [extracted, Project.entries, List.filterMap_cons_some behind]
    decide
  have start := Project.isImportPath_singleton ["a.js", "c.js", "e.js", "s.js"] ⟨_, readStart⟩
  have near := (Project.isImportPath_concat_iff rfl).mpr
    ⟨start, fromStart, ⟨_, readSecond⟩, by decide⟩
  exact (Project.isImportPath_concat_iff rfl).mpr ⟨near, fromSecond, ⟨_, readLast⟩, by decide⟩

/-- A discovered file that two imports lead to is not scanned with a limit of two. -/
theorem near_file_left_out :
    let request : BuildRequest := { startFile := some "s.js", limit := .atMost 2 }
    shortcutProject.IsImportPath (discovered shortcutProject request) "s.js"
        ["s.js", "c.js", "e.js"] ∧
      "e.js" ∈ discovered shortcutProject request ∧
        "e.js" ∉ (build shortcutProject request Store.empty).store.graph.scanned := by
  intro request
  have known : discovered shortcutProject request = _ := discovered_of_ok discover_shortcutProject
  rw [known, scanned_shortcutProject]
  exact ⟨isImportPath_shortcutProject, by decide, by decide⟩

/-- The file inside that path was expanded at the limit. -/
theorem scanned_within_depth_of_shortcut :
    let request : BuildRequest := { startFile := some "s.js", limit := .atMost 2 }
    startPoint? shortcutProject "s.js" = .ok (some "s.js") ∧
      shortcutProject.IsImportPath (discovered shortcutProject request) "s.js"
        ["s.js", "c.js", "e.js"] ∧
      ("c.js", 2) ∈ (build shortcutProject request Store.empty).depths := by
  intro request
  have found : startPoint? shortcutProject "s.js" = .ok (some "s.js") :=
    child_shortcutProject.1.startPoint?
  have known : discovered shortcutProject request = _ := discovered_of_ok discover_shortcutProject
  have path : shortcutProject.IsImportPath (discovered shortcutProject request) "s.js"
      ["s.js", "c.js", "e.js"] := by
    rw [known]
    exact isImportPath_shortcutProject
  have listed : "e.js" ∈ discovered shortcutProject request := by
    rw [known]
    decide
  obtain ⟨-, -, complete⟩ :=
    scanned_within_depth shortcutProject request 2 "s.js" "s.js" rfl rfl (by decide) found
  refine ⟨found, path, ?_⟩
  rcases complete _ "e.js" path rfl listed (by decide) with scanned | ⟨earlier, inside, deep⟩
  · rw [scanned_shortcutProject] at scanned
    exact absurd scanned (by decide)
  · rw [← List.mem_singleton.mp inside]
    exact deep

end Build

end ModuleAtlas
