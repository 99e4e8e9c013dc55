import ModuleAtlas.Proofs.Build.Dependencies
import ModuleAtlas.Proofs.Build.Turns

/-! # How often files are opened

A file is opened while it is fresh, and is then no longer fresh; only the file that a
build starts from may be opened without having been fresh, and it is the first. So no
file is opened twice (`ModuleAtlas.Build.OpensOnce`), also where several traversals
share their progress, and all files that are opened but the first were discovered
(`ModuleAtlas.Build.OpenedFrom`). Together with the bound on the turns of an
expansion this bounds what a build does
(`ModuleAtlas.Build.expansions_end_and_open_once`).
-/

namespace ModuleAtlas.Build

/-- The files that a build opened, the earliest first. -/
def openings (build : Build) : List String :=
  build.events.filterMap fun
    | .opened file => some file
    | _ => none

/-- Files that are opened one after the other are known, but for the first one, which
may be a starting point instead. -/
def OpenedFrom (points known openings : List String) : Prop :=
  openings ⊆ known ∨
    ∃ file rest, openings = file :: rest ∧ file ∈ points ∧ file ∉ known ∧ rest ⊆ known

section Opened

variable {points known openings : List String} {file : String}

private theorem OpenedFrom.concat (opened : OpenedFrom points known openings)
    (listed : file ∈ known) :
    OpenedFrom points known (openings ++ [file]) := by
  have last : [file] ⊆ known := List.cons_subset.mpr ⟨listed, List.nil_subset _⟩
  rcases opened with inside | ⟨first, rest, rfl, chosen, outside, inside⟩
  · exact Or.inl (List.append_subset.mpr ⟨inside, last⟩)
  · exact Or.inr ⟨first, rest ++ [file], rfl, chosen, outside,
      List.append_subset.mpr ⟨inside, last⟩⟩

private theorem openedFrom_singleton (known : List String) (chosen : file ∈ points) :
    OpenedFrom points known [file] := by
  by_cases listed : file ∈ known
  · exact Or.inl (List.cons_subset.mpr ⟨listed, List.nil_subset _⟩)
  · exact Or.inr ⟨file, [], rfl, chosen, listed, List.nil_subset _⟩

/-- At most one file more is opened than there are known files, if none is opened
twice. -/
theorem OpenedFrom.length_le (opened : OpenedFrom points known openings)
    (distinct : openings.Nodup) : openings.length ≤ known.toFinset.card + 1 := by
  have bound : ∀ files : List String, files.Nodup → files ⊆ known →
      files.length ≤ known.toFinset.card := by
    intro files apart inside
    rw [← List.toFinset_card_of_nodup apart]
    exact Finset.card_le_card fun file member =>
      List.mem_toFinset.mpr (inside (List.mem_toFinset.mp member))
  rcases opened with inside | ⟨first, rest, rfl, -, -, inside⟩
  · exact (bound openings distinct inside).trans (Nat.le_succ _)
  · exact Nat.succ_le_succ (bound rest distinct.of_cons inside)

end Opened

/-- What holds of the files that are opened at every stage of a traversal that knows
some files. -/
structure OpensOnce (project : Project) (points known : List String) (progress : Progress) :
    Prop where
  nodup : progress.openings.Nodup
  origin : OpenedFrom points known progress.openings
  fresh : ∀ file ∈ progress.fresh, file ∈ known ∧ file ∉ progress.openings
  stale : ∀ file ∈ known, file ∉ progress.fresh → project.IsRegular file →
    file ∈ progress.openings
  added : progress.operations.filterMap Operation.addedFile? ⊆ progress.openings

section Preservation

variable {task : Task} {points known : List String} {before after : Progress} {file : String}
  {depth : Nat} {opened : Option Frame} {state next : Progress × List Frame}

private theorem opensOnce_start (project : Project) (points : List String)
    (unopened : before.openings = []) (unasked : before.operations = []) :
    OpensOnce project points before.fresh before where
  nodup := by rw [unopened]; exact List.nodup_nil
  origin := by rw [unopened]; exact Or.inl (List.nil_subset _)
  fresh file member := ⟨member, by simp only [unopened, List.not_mem_nil, not_false_eq_true]⟩
  stale file listed left := absurd listed left
  added := by rw [unasked]; exact List.nil_subset _

private theorem OpensOnce.keep (once : OpensOnce task.project points known before)
    (fresh : after.fresh = before.fresh)
    (added : after.operations.filterMap Operation.addedFile? =
      before.operations.filterMap Operation.addedFile?)
    (openings : after.openings = before.openings) :
    OpensOnce task.project points known after where
  nodup := by rw [openings]; exact once.nodup
  origin := by rw [openings]; exact once.origin
  fresh := by rw [fresh, openings]; exact once.fresh
  stale := by rw [fresh, openings]; exact once.stale
  added := by rw [added, openings]; exact once.added

/-- A file that is no regular file may be left behind. -/
theorem OpensOnce.leave (once : OpensOnce task.project points known before)
    (irregular : ¬ task.project.IsRegular file)
    (fresh : after.fresh = before.fresh.filter (· ≠ file))
    (operations : after.operations = before.operations)
    (openings : after.openings = before.openings) :
    OpensOnce task.project points known after where
  nodup := by rw [openings]; exact once.nodup
  origin := by rw [openings]; exact once.origin
  fresh other member := by
    rw [openings]
    exact once.fresh other (List.mem_filter.mp (fresh ▸ member)).1
  stale other listed left regular := by
    rw [fresh, List.mem_filter, decide_eq_true_eq, not_and, Decidable.not_not] at left
    rw [openings]
    by_cases waiting : other ∈ before.fresh
    · cases left waiting
      exact absurd regular irregular
    · exact once.stale other listed waiting regular
  added := by rw [operations, openings]; exact once.added

/-- A file that is fresh, or the first one, may be opened. -/
theorem OpensOnce.open (once : OpensOnce task.project points known before)
    (first : file ∈ before.fresh ∨ before.openings = [] ∧ file ∈ points)
    (fresh : after.fresh = before.fresh.filter (· ≠ file))
    (operations : after.operations.filterMap Operation.addedFile? ⊆
      before.operations.filterMap Operation.addedFile? ++ [file])
    (openings : after.openings = before.openings ++ [file]) :
    OpensOnce task.project points known after where
  nodup := by
    have new : file ∉ before.openings := by
      rcases first with waiting | ⟨unopened, -⟩
      · exact (once.fresh file waiting).2
      · simp only [unopened, List.not_mem_nil, not_false_eq_true]
    rw [openings]
    exact List.nodup_append'.mpr ⟨once.nodup, List.nodup_singleton file,
      List.disjoint_singleton.mpr new⟩
  origin := by
    rw [openings]
    rcases first with waiting | ⟨unopened, chosen⟩
    · exact once.origin.concat (once.fresh file waiting).1
    · rw [unopened]
      exact openedFrom_singleton known chosen
  fresh other member := by
    rw [fresh, List.mem_filter, decide_eq_true_eq] at member
    obtain ⟨listed, unopened⟩ := once.fresh other member.1
    refine ⟨listed, fun again => ?_⟩
    rw [openings, List.mem_append, List.mem_singleton] at again
    exact again.elim unopened member.2
  stale other listed left regular := by
    rw [fresh, List.mem_filter, decide_eq_true_eq, not_and, Decidable.not_not] at left
    rw [openings, List.mem_append, List.mem_singleton]
    by_cases waiting : other ∈ before.fresh
    · exact Or.inr (left waiting)
    · exact Or.inl (once.stale other listed waiting regular)
  added := by
    rw [openings]
    exact List.Subset.trans operations (List.append_subset.mpr
      ⟨List.subset_append_of_subset_left _ once.added, List.subset_append_right _ _⟩)

private theorem OpensOnce.enter (once : OpensOnce task.project points known before)
    (first : file ∈ before.fresh ∨ before.openings = [] ∧ file ∈ points)
    (entered : Entered task depth file before after opened) :
    OpensOnce task.project points known after := by
  cases entered with
  | beyond _ _ fresh operations openings =>
      exact once.keep fresh (by rw [operations]) openings
  | irregular _ irregular _ fresh operations openings =>
      refine once.leave (fun regular => ?_) fresh operations openings
      cases regular.symm.trans irregular
  | unreadable _ _ _ _ fresh operations openings =>
      refine once.open first fresh ?_ openings
      rw [operations]
      exact List.subset_append_left _ _
  | opened _ _ _ _ fresh operations openings =>
      refine once.open first fresh ?_ openings
      rw [operations, List.filterMap_append]
      exact List.Subset.refl _

private theorem OpensOnce.record {reference : String} {target : Option String}
    (once : OpensOnce task.project points known before)
    (recorded : Recorded task file reference before after target) :
    OpensOnce task.project points known after := by
  refine once.keep recorded.fresh ?_ recorded.openings
  rw [recorded.operations, List.filterMap_append, Verdict.addedFiles_operations, List.append_nil]

/-- A step of a traversal opens no file again. -/
theorem opensOnce_step (once : OpensOnce task.project points known state.1)
    (step : Step task points state next) : OpensOnce task.project points known next.1 := by
  cases step with
  | start chosen first entered =>
      exact once.enter (first.imp_right fun unopened => ⟨unopened, chosen⟩) entered
  | close => exact once
  | pass depth references frames recorded => exact once.record recorded
  | descend references frames recorded fresh entered =>
      exact (once.record recorded).enter (Or.inl (recorded.fresh ▸ fresh)) entered

private theorem opensOnce_steps (once : OpensOnce task.project points known state.1)
    (steps : Steps task points state next) : OpensOnce task.project points known next.1 := by
  induction steps with
  | refl => exact once
  | tail _ step ih => exact opensOnce_step ih step

private theorem Entered.openings_subset (entered : Entered task depth file before after opened) :
    before.openings ⊆ after.openings := by
  cases entered with
  | beyond _ _ _ _ openings => rw [openings]; exact List.Subset.refl _
  | irregular _ _ _ _ _ openings => rw [openings]; exact List.Subset.refl _
  | unreadable _ _ _ _ _ _ openings => rw [openings]; exact List.subset_append_left _ _
  | opened _ _ _ _ _ _ openings => rw [openings]; exact List.subset_append_left _ _

private theorem openings_subset_of_steps (steps : Steps task points state next) :
    state.1.openings ⊆ next.1.openings := by
  induction steps with
  | refl => exact List.Subset.refl _
  | tail _ step ih =>
      refine List.Subset.trans ih ?_
      cases step with
      | start _ _ entered => exact entered.openings_subset
      | close => exact List.Subset.refl _
      | pass _ _ _ recorded =>
          rw [recorded.openings]
          exact List.Subset.refl _
      | descend _ _ recorded _ entered => exact recorded.openings ▸ entered.openings_subset

/-- A regular file that was tried within the limit was opened. -/
theorem Tried.mem_openings (tried : Tried task points known file after)
    (within : task.limit.isExceededBy 0 = .ok false)
    (once : OpensOnce task.project points known after) (regular : task.project.IsRegular file) :
    file ∈ after.openings := by
  cases tried with
  | entered entered rest =>
      apply openings_subset_of_steps rest
      cases entered with
      | beyond limit => cases within.symm.trans limit
      | irregular _ irregular => cases regular.symm.trans irregular
      | unreadable _ _ _ _ _ _ openings =>
          simp only [openings, List.mem_append, List.mem_cons, List.not_mem_nil, or_false,
            or_true]
      | opened _ _ _ _ _ _ openings =>
          simp only [openings, List.mem_append, List.mem_cons, List.not_mem_nil, or_false,
            or_true]
  | stale listed stale rest =>
      exact once.stale file listed (fun fresh => stale ((subset_of_steps rest).2 fresh)) regular

end Preservation

section Ending

private theorem openings_ended (result : Progress × Option Failure) :
    (ended result).openings = result.1.openings := by
  rcases result with ⟨progress, _ | failure⟩
  · exact Progress.openings_note progress _
  · rfl

variable {project : Project} {request : BuildRequest}

/-- What a build opened and added is that of a progress at which no file was opened
twice, and a build that succeeds has tried all its starting points by then. -/
structure Accounts (project : Project) (request : BuildRequest) (built : Build)
    (final : Progress) : Prop where
  once : OpensOnce project (startsFrom project request) (discovered project request) final
  openings : built.openings = final.openings
  operations : built.operations = final.operations
  tried : built.failure = none → ∀ file ∈ startsFrom project request,
    Tried ⟨project, request.limit⟩ (startsFrom project request) (discovered project request) file
      final

/-- A build that fails before its traversal opens and adds nothing. -/
theorem exists_accounts_of_idle {built : Build} (unopened : built.openings = [])
    (unasked : built.operations = []) (failed : built.failure ≠ none) :
    ∃ final, Accounts project request built final := by
  let idle : Progress := ⟨Graph.empty, discovered project request, []⟩
  have once : OpensOnce project (startsFrom project request) idle.fresh idle :=
    opensOnce_start project (startsFrom project request) rfl rfl
  exact ⟨idle, once, unopened, unasked, fun succeeded => absurd succeeded failed⟩

private theorem exists_accounts (project : Project) (request : BuildRequest) (store : Store) :
    ∃ final, Accounts project request (build project request store) final := by
  cases frozen : store.frozen with
  | true =>
      have whole : build project request store = ⟨store, [], some .alreadyBuilt⟩ := if_pos frozen
      rw [whole]
      exact exists_accounts_of_idle rfl rfl (by simp only [ne_eq, reduceCtorEq, not_false_eq_true])
  | false =>
      rcases discovery : project.tree.discover request.filter project.root with
        ⟨found, failure | files⟩
      · rw [build_eq_stopped_of_unfrozen frozen discovery]
        apply exists_accounts_of_idle
        · simp only [openings, List.map_append, List.filterMap_append, List.filterMap_map,
            Function.comp_apply, List.filterMap_none, List.append_nil]
        · simp only [operations, List.map_append, List.filterMap_append, List.filterMap_map,
            Function.comp_apply, List.filterMap_none, List.append_nil]
        · simp only [ne_eq, reduceCtorEq, not_false_eq_true]
      · have all := discovered_of_ok (congrArg Prod.snd discovery)
        let start := (Progress.mk store.graph files []).noteAll
          (openingNotices project request ++ found)
        have fresh : start.fresh = files := Progress.fresh_noteAll _ _
        have unopened : start.openings = [] := Progress.openings_noteAll _ _
        obtain ⟨first, final, spans⟩ := spans_startsFrom all fresh unopened
        have once := opensOnce_start project (startsFrom project request)
          (spans.begins.openings.trans unopened)
          (spans.begins.operations.trans (Progress.operations_noteAll _ _))
        have known : start.fresh = discovered project request := fresh.trans all.symm
        rw [spans.fresh, known] at once
        rw [build_eq_ended_of_unfrozen frozen discovery]
        refine ⟨final, opensOnce_steps once spans.steps, ?_, ?_, fun succeeded => ?_⟩
        · rw [openings_ended, spans.ends.openings]
        · rw [operations_ended, spans.ends.operations]
        · rw [failure_ended] at succeeded
          exact known ▸ spans.tried succeeded

end Ending

/-- The expansion of any stack at any progress ends. It takes at most one turn for every
frame and every reference that is left, one for every file that is still fresh and for
every reference of it, and a last one; a file that is entered first pays for itself. It
does not fail where depths can be compared with the limit. However files lead to each
other, a build opens every file that it adds, and none twice. It opens only discovered
files, or a start file that was not discovered and then discovered files, and so at most
one file more than it discovered; and if it succeeds within its limit, it opens every
regular file that it starts from. -/
theorem expansions_end_and_open_once :
    (∀ (task : Task) (file : String) (progress : Progress) (frames : List Frame) (spare : Nat),
      let paid := (progress.fresh.map (outlay task)).sum + workLeft frames + 1 + spare
      (Stage.turn task)^[paid] (.expanding progress frames) =
          .ended (run task progress frames) ∧
        (task.limit.Comparable → (run task progress frames).2 = none) ∧
        (Stage.turn task)^[outlay task file + paid] (.entering task 0 file progress frames) =
          .ended ((Stage.entering task 0 file progress frames).outcome task) ∧
        (Stage.entering task 0 file progress []).outcome task = traverse task file progress) ∧
    ∀ (project : Project) (request : BuildRequest) (store : Store),
      let built := build project request store
      let known := discovered project request
      built.openings.Nodup ∧
      (built.openings ⊆ known ∨ ∃ start file rest, request.startFile = some start ∧
        startPoint? project start = .ok (some file) ∧ file ∉ known ∧
        built.openings = file :: rest ∧ rest ⊆ known) ∧
      built.openings.length ≤ known.toFinset.card + 1 ∧
      built.operations.filterMap Operation.addedFile? ⊆ built.openings ∧
      (built.failure = none → request.limit.isExceededBy 0 = .ok false →
        ∀ file ∈ startsFrom project request, project.IsRegular file → file ∈ built.openings) := by
  refine ⟨?_, ?_⟩
  · intro task file progress frames spare paid
    have enough : (Stage.expanding progress frames).expense task ≤ paid := Nat.le_add_right _ _
    have starting := Stage.expense_starting_le task 0 file progress frames
    refine ⟨Stage.iterate_turn task enough, fun comparable => ?_,
      Stage.iterate_turn task (by omega), Stage.outcome_entering task file progress⟩
    obtain ⟨final, done, -⟩ := exists_steps_of_run task [] comparable progress frames
    rw [done]
  · intro project request store built known
    obtain ⟨final, once, openings, operations, tried⟩ := exists_accounts project request store
    have same : built.openings = final.openings := openings
    have asked : built.operations = final.operations := operations
    rw [same, asked]
    refine ⟨once.nodup, ?_, once.origin.length_le once.nodup, once.added,
      fun succeeded within file chosen regular => ?_⟩
    · rcases once.origin with inside | ⟨file, rest, whole, chosen, outside, inside⟩
      · exact Or.inl inside
      · rcases mem_startsFrom_cases chosen with listed | ⟨start, named, found⟩
        · exact absurd listed outside
        · exact Or.inr ⟨start, file, rest, named, found, outside, whole, inside⟩
    · exact (tried succeeded file chosen).mem_openings within once regular

/-- A request that starts from one file of a loop and discovers only the other one. -/
def halfLoop : BuildRequest :=
  { filter := { extensions := ["b.js"] }, startFile := some "a.js" }

private theorem discover_halfLoop :
    (loopProject.tree.discover halfLoop.filter loopProject.root).2 = .ok ["b.js"] := by
  cbv

private theorem failure_halfLoop : (build loopProject halfLoop Store.empty).failure = none :=
  failure_eq_none_of_startPoint? (fun _ => ⟨false, rfl⟩) discover_halfLoop rfl (by decide)
    child_loopProject.1.startPoint?

/-- The discovered file is added, because the start file leads to it. -/
theorem added_halfLoop :
    "b.js" ∈ (build loopProject halfLoop Store.empty).operations.filterMap
      Operation.addedFile? := by
  have edge := hasInternalEdge_loopProject rfl discover_halfLoop rfl
  have listed : "b.js" ∈ discovered loopProject halfLoop := by
    rw [discovered_of_ok discover_halfLoop]
    exact List.mem_singleton_self _
  obtain ⟨start, final, unfolds⟩ := exists_unfolds loopProject halfLoop
  rw [unfolds.store] at edge
  rw [unfolds.changes, unfolds.covers.added]
  exact unfolds.covers.stale "b.js" listed (unfolds.settled rfl "a.js" "b.js" edge)
    child_loopProject.2.isRegular ⟨_, readText_loopProject.2⟩

/-- A build that starts from an undiscovered file of a loop opens one file more than it
discovers, and does not come back to the start file. -/
theorem start_file_opened_once_in_loop :
    let built := build loopProject halfLoop Store.empty
    discovered loopProject halfLoop = ["b.js"] ∧ built.failure = none ∧
      loopProject.IsRegular "a.js" ∧ built.openings = ["a.js", "b.js"] ∧
      (run ⟨loopProject, .unlimited⟩ ⟨Graph.empty, ["b.js"], []⟩
        [⟨"a.js", 0, ["./b.js"]⟩]).2 = none := by
  intro built
  have known : discovered loopProject halfLoop = ["b.js"] := discovered_of_ok discover_halfLoop
  have regular : loopProject.IsRegular "a.js" := child_loopProject.1.isRegular
  have chosen : "a.js" ∈ startsFrom loopProject halfLoop := by
    rw [startsFrom_of_named rfl (by decide) child_loopProject.1.startPoint?]
    exact List.mem_singleton_self _
  obtain ⟨ends, opens⟩ := expansions_end_and_open_once
  obtain ⟨-, succeeds, -⟩ := ends ⟨loopProject, .unlimited⟩ "a.js" ⟨Graph.empty, ["b.js"], []⟩
    [⟨"a.js", 0, ["./b.js"]⟩] 0
  obtain ⟨nodup, origin, -, added, points⟩ := opens loopProject halfLoop Store.empty
  have started := points failure_halfLoop rfl "a.js" chosen regular
  have led := added added_halfLoop
  refine ⟨known, failure_halfLoop, regular, ?_, succeeds fun _ => ⟨false, rfl⟩⟩
  rcases origin with inside | ⟨start, file, rest, named, found, -, whole, inside⟩
  · have listed := inside started
    rw [known] at listed
    exact absurd listed (by decide)
  · cases named
    cases child_loopProject.1.startPoint?.symm.trans found
    rw [whole] at nodup led
    have later : "b.js" ∈ rest := List.mem_of_ne_of_mem (by decide) led
    have only : ∀ file, file ∈ rest ↔ file ∈ ["b.js"] := fun file =>
      ⟨fun member => known ▸ inside member, fun same => List.mem_singleton.mp same ▸ later⟩
    have single : rest = ["b.js"] := List.perm_singleton.mp
      ((List.perm_ext_iff_of_nodup nodup.of_cons (List.nodup_singleton _)).mpr only)
    exact whole.trans (single ▸ rfl)

end ModuleAtlas.Build
