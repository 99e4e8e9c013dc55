import Mathlib.Data.List.Nodup
import ModuleAtlas.Proofs.Session.Interleaving

/-! # What overlapping calls answer

A call that scans anew answers with the counts of its own result and with the options that are
kept when it answers. It reads them after it has given the lock back, so other calls may have
been completed since. The options that it names are those of the last of these that succeeded
(`ModuleAtlas.Session.overrides_inTurn`), and they are its own only if that one was run with the
same options, or if there is none. A scan after files have changed is run with the options that
are kept, and so does no harm.
-/

namespace ModuleAtlas.Session

/-- The answer of a call that has found a result and reads some options at its end. -/
def answer (overrides : NamedOptions) (result : ScanResult) : Json :=
  .obj [("overrides", .obj overrides), ("summary", summaryValue result.report.summary)]

private theorem answer_eq_iff {options others : NamedOptions} {result : ScanResult} :
    answer options result = answer others result ↔ options = others := by
  simp only [answer, Json.obj.injEq, List.cons.injEq, Prod.mk.injEq, true_and, and_true]

section Sequence

variable {Caller : Type} {calls : Caller → Ask} {session : Session} {tree : FileTree}
variable {reset : Bool} {given : NamedOptions} {result : ScanResult} {failure : Failure}

private theorem result_rescan {startFile maxDepth analyzeModes : Json}
    (taken : takesDepth maxDepth = true) :
    let outcome := session.runScan tree reset (rescanOptions startFile maxDepth analyzeModes)
    (session.rescan tree startFile maxDepth analyzeModes reset).result =
      outcome.result.map (answer outcome.session.overrides) := by
  unfold Session.rescan
  cases maxDepth with
  | null | bool value => rfl
  | int depth =>
      have above : decide (depth < 0) = false := by simpa [takesDepth] using taken
      simp only [isNegativeDepth, above]
      rfl
  | real depth =>
      have above : decide (depth.toFloat < 0) = false := by simpa [takesDepth] using taken
      simp only [isNegativeDepth, above]
      rfl
  | str | arr | obj => cases taken

/-- A call that nobody overtakes answers with the options that it was run with. -/
theorem rescan_eq_answer {startFile maxDepth analyzeModes : Json} {ask : Ask}
    (asked : (Request.rescan startFile maxDepth analyzeModes reset).ask? = some ask)
    (found : (scanConfigured tree session.settings (ask.optionsOver session.overrides)).2 =
      .ok result) :
    (session.rescan tree startFile maxDepth analyzeModes reset).result =
      .ok (answer (ask.optionsOver session.overrides) result) := by
  rw [Request.ask?] at asked
  split at asked
  · next taken =>
      cases asked
      have succeeded : (session.runScan tree reset
          (rescanOptions startFile maxDepth analyzeModes)).result = .ok result :=
        runScan_eq_ok_iff.mpr
          ⟨fun option member => notMem_requestNames_of_rescanOptions member, found⟩
      rw [result_rescan taken, succeeded, runScan_of_ok succeeded]
      rfl
  · cases asked

private theorem overrides_runScan_of_error
    (failed : (session.runScan tree reset given).result = .error failure) :
    (session.runScan tree reset given).session.overrides = session.overrides := by
  unfold runScan at failed ⊢
  split
  · rfl
  · next clash =>
      rw [clash] at failed
      dsimp only at failed ⊢
      split
      · next found =>
          rw [found] at failed
          cases failed
      · rfl

/-- A scan that is given nothing leaves the options as they are. -/
theorem overrides_runScan_idle : (session.runScan tree false []).session.overrides =
    session.overrides := by
  cases outcome : (session.runScan tree false []).result with
  | error failure => exact overrides_runScan_of_error outcome
  | ok result =>
      rw [runScan_of_ok outcome]
      rfl

/-- The options that calls one after the other are run with, of those that succeed. -/
def ran (calls : Caller → Ask) (session : Session) : List (Caller × FileTree) → List NamedOptions
  | [] => []
  | call :: later =>
      let outcome := session.runScan call.2 (calls call.1).reset (calls call.1).given
      match outcome.result with
      | .ok _ => outcome.session.overrides :: ran calls outcome.session later
      | .error _ => ran calls outcome.session later

/-- The options that are kept are those of the last call that succeeded. -/
theorem overrides_inTurn (session : Session) (done : List (Caller × FileTree)) :
    (inTurn calls session done).overrides =
      (ran calls session done).getLast?.getD session.overrides := by
  induction done generalizing session with
  | nil => rfl
  | cons call later ih =>
      have step : inTurn calls session (call :: later) = inTurn calls
        (session.runScan call.2 (calls call.1).reset (calls call.1).given).session later := rfl
      rw [step, ih, ran]
      cases outcome : (session.runScan call.2 (calls call.1).reset (calls call.1).given).result with
      | error failure => rw [overrides_runScan_of_error outcome]
      | ok result =>
          dsimp only
          rw [List.getLast?_cons, Option.getD_some]

private theorem eq_overrides_of_mem_ran {done : List (Caller × FileTree)} {options : NamedOptions}
    (idle : ∀ call ∈ done, calls call.1 = ⟨false, []⟩) (member : options ∈ ran calls session done) :
    options = session.overrides := by
  induction done generalizing session with
  | nil => cases member
  | cons call later ih =>
      have kept : (session.runScan call.2 (calls call.1).reset
          (calls call.1).given).session.overrides = session.overrides := by
        rw [idle call List.mem_cons_self]
        exact overrides_runScan_idle
      have others := fun other (listed : other ∈ later) =>
        idle other (List.mem_cons_of_mem _ listed)
      rw [ran] at member
      split at member
      · rcases List.mem_cons.mp member with same | behind
        · exact same.trans kept
        · exact (ih others behind).trans kept
      · exact (ih others member).trans kept

private theorem settings_runScan : (session.runScan tree reset given).session.settings =
    session.settings := by
  unfold runScan
  split
  · rfl
  · dsimp only
    split
    · rfl
    · rfl

private theorem settings_inTurn (session : Session) (done : List (Caller × FileTree)) :
    (inTurn calls session done).settings = session.settings := by
  induction done generalizing session with
  | nil => rfl
  | cons call later ih => exact (ih _).trans settings_runScan

private theorem overrides_inTurn_concat {before : List (Caller × FileTree)} {caller : Caller}
    (named : ∀ option ∈ (calls caller).given, option.1 ∉ requestNames)
    (found : (scanConfigured tree session.settings
      ((calls caller).optionsOver (inTurn calls session before).overrides)).2 = .ok result) :
    (inTurn calls session (before ++ [(caller, tree)])).overrides =
      (calls caller).optionsOver (inTurn calls session before).overrides := by
  rw [← settings_inTurn session before] at found
  rw [Shared.inTurn_concat named, attempt, found]
  rfl

end Sequence

/-- The outcome that a call has left behind. -/
def Stage.outcome? : Stage → Option (Except Failure ScanResult)
  | .settled outcome | .finished outcome => some outcome
  | _ => none

namespace Shared

variable {Caller : Type} {calls : Caller → Ask} {initial : Session} {caller : Caller}
variable {done : List (Caller × FileTree)} {order : List Caller}
variable {outcome : Except Failure ScanResult} {shared next first last : Shared Caller}

/-- The call of a caller is one of those that are completed, and its outcome is that of its
scan with its options over those that the calls before it have left. -/
def Left (calls : Caller → Ask) (initial : Session) (done : List (Caller × FileTree))
    (caller : Caller) (outcome : Except Failure ScanResult) : Prop :=
  (∀ option ∈ (calls caller).given, option.1 ∉ requestNames) ∧
    ∃ before tree later, done = before ++ (caller, tree) :: later ∧
      (scanConfigured tree initial.settings
        ((calls caller).optionsOver (inTurn calls initial before).overrides)).2 = outcome

private theorem Left.append (left : Left calls initial done caller outcome)
    (more : List (Caller × FileTree)) : Left calls initial (done ++ more) caller outcome := by
  obtain ⟨named, before, tree, later, rfl, found⟩ := left
  exact ⟨named, before, tree, later ++ more, by simp, found⟩

/-- Every outcome that was left behind is that of a completed call. -/
def Attributes (calls : Caller → Ask) (initial : Session) (done : List (Caller × FileTree))
    (shared : Shared Caller) : Prop :=
  ∀ caller outcome, (shared.stage caller).outcome? = some outcome →
    Left calls initial done caller outcome

/-- Callers take the lock once, and no longer wait after that. -/
def TakesOnce (order : List Caller) (shared : Shared Caller) : Prop :=
  order.Nodup ∧ ∀ caller ∈ order, shared.stage caller ≠ .waiting

variable [DecidableEq Caller] {action : Action Caller} {trace : List (Action Caller)}

private theorem Attributes.update {stage : Stage}
    (attributes : Attributes calls initial done shared) (more : List (Caller × FileTree))
    (moved : next.stage = Function.update shared.stage caller stage)
    (own : ∀ outcome, stage.outcome? = some outcome →
      Left calls initial (done ++ more) caller outcome) :
    Attributes calls initial (done ++ more) next := by
  intro other outcome here
  rw [moved] at here
  by_cases same : other = caller
  · subst same
    rw [Function.update_self] at here
    exact own outcome here
  · rw [Function.update_of_ne same] at here
    exact (attributes other outcome here).append more

private theorem Attributes.step (attributes : Attributes calls initial done shared)
    (stands : Stands calls initial done order shared) (step : Step calls shared action next) :
    Attributes calls initial (done ++ action.completed?.toList) next := by
  cases step with
  | acquire | prepare | scan =>
      refine attributes.update _ rfl ?_
      intro outcome absent
      cases absent
  | @settle caller tree options outcome stage =>
      -- The call that settles is the next one completed, after all that are done.
      obtain ⟨-, -, named, ⟨-, options_eq, outcome_eq⟩, -⟩ := stands.held_of_inside stage id
      refine attributes.update _ rfl ?_
      rintro _ ⟨⟩
      refine ⟨named, done, tree, [], rfl, ?_⟩
      rw [outcome_eq, options_eq, settings_inTurn]
  | @release caller outcome stage =>
      refine attributes.update _ rfl ?_
      rintro _ ⟨⟩
      have here : (shared.stage caller).outcome? = some outcome := by
        rw [stage]
        rfl
      exact (attributes caller outcome here).append _
  | readResult | readOverrides => simpa [Action.completed?] using attributes

private theorem Run.attributes (run : Run calls first trace last)
    (stands : Stands calls initial done order first)
    (attributes : Attributes calls initial done first) :
    Attributes calls initial (done ++ completed trace) last := by
  induction run generalizing done order with
  | nil => simpa only [completed, List.filterMap_nil, List.append_nil] using attributes
  | @cons first middle last action trace step run ih =>
      have later := ih (stands.step step) (attributes.step stands step)
      rwa [List.append_assoc, ← completed_cons] at later

/-- An outcome that was left behind in a run is that of a call completed in it. -/
theorem Run.left {settings : Settings} (run : Run calls (start settings) trace last)
    (here : (last.stage caller).outcome? = some outcome) :
    Left calls (create settings) (completed trace) caller outcome := by
  have opening : Attributes calls (create settings) [] (start settings) := by
    intro caller outcome absent
    cases absent
  exact run.attributes (stands_start calls settings) opening caller outcome here

/-- The options that are kept after a run are those that the later of its calls have left over
the session of the earlier ones. -/
theorem Run.overrides_eq {settings : Settings} (run : Run calls (start settings) trace last)
    {done later : List (Caller × FileTree)} (whole : completed trace = done ++ later) :
    last.session.overrides =
      (inTurn calls (inTurn calls (create settings) done) later).overrides := by
  have stands : Stands calls (create settings) (completed trace) (acquired trace) last :=
    run.stands (stands_start calls settings)
  have turned : inTurn calls (create settings) (completed trace) =
      inTurn calls (inTurn calls (create settings) done) later := by
    rw [whole]
    exact List.foldl_append ..
  have kept := congrArg Session.overrides stands.session_eq
  rw [← turned]
  exact kept

private theorem TakesOnce.update {stage : Stage} (once : TakesOnce order shared)
    {more : List Caller} (mine : ∀ other ∈ more, other = caller) (nodup : (order ++ more).Nodup)
    (moved : next.stage = Function.update shared.stage caller stage) (active : stage ≠ .waiting) :
    TakesOnce (order ++ more) next := by
  refine ⟨nodup, fun other member => ?_⟩
  rw [moved]
  by_cases same : other = caller
  · rw [same, Function.update_self]
    exact active
  · rw [Function.update_of_ne same]
    rcases List.mem_append.mp member with listed | added
    · exact once.2 other listed
    · exact absurd (mine other added) same

private theorem TakesOnce.step (once : TakesOnce order shared)
    (step : Step calls shared action next) :
    TakesOnce (order ++ action.acquired?.toList) next := by
  have unchanged : (order ++ []).Nodup := by simpa only [List.append_nil] using once.1
  cases step with
  | @acquire caller named free stage =>
      have fresh : caller ∉ order := fun member => once.2 caller member stage
      have nodup : (order ++ [caller]).Nodup := by
        simpa only [List.concat_eq_append] using List.Nodup.concat fresh once.1
      exact once.update (fun _ => List.mem_singleton.mp) nodup rfl Stage.noConfusion
  | prepare | scan | settle | release =>
      exact once.update (fun _ absent => by cases absent) unchanged rfl Stage.noConfusion
  | readResult | readOverrides => simpa [Action.acquired?] using once

private theorem Run.takesOnce (run : Run calls first trace last) (once : TakesOnce order first) :
    TakesOnce (order ++ acquired trace) last := by
  induction run generalizing order with
  | nil => simpa only [acquired, List.filterMap_nil, List.append_nil] using once
  | @cons first middle last action trace step run ih =>
      have later := ih (once.step step)
      rwa [List.append_assoc, ← acquired_cons] at later

/-- No caller completes two calls. -/
theorem Run.nodup_completed {settings : Settings} (run : Run calls (start settings) trace last) :
    ((completed trace).map Prod.fst).Nodup := by
  have stands := run.stands (stands_start calls settings)
  have once : TakesOnce (acquired trace) last := by
    have first : TakesOnce [] (start settings : Shared Caller) :=
      ⟨List.nodup_nil, List.forall_mem_nil _⟩
    simpa only [List.nil_append] using run.takesOnce first
  exact stands.isPrefix.sublist.nodup once.1

/-- A call that has found a result and given the lock back is one of the completed calls, and
its result is that of its scan with its own options, over those of the calls before it. When
it answers, the options that it names are those that the last success among the calls
completed since was run with, and its own if there is none. So it answers like a call that
nobody overtakes exactly if that success had the same options, in particular if the calls
since were given nothing. -/
theorem answer_consistent_iff (settings : Settings) {result : ScanResult}
    (run : Run calls (start settings) trace shared)
    (finished : shared.stage caller = .finished (.ok result)) :
    let after := inTurn calls (create settings)
    ∃ before tree later, completed trace = before ++ (caller, tree) :: later ∧
      caller ∉ (before ++ later).map Prod.fst ∧
      let own := (calls caller).optionsOver (after before).overrides
      let since := ran calls (after (before ++ [(caller, tree)])) later
      (scanConfigured tree settings own).2 = .ok result ∧
      (∀ startFile maxDepth analyzeModes reset,
        (Request.rescan startFile maxDepth analyzeModes reset).ask? = some (calls caller) →
        ((after before).rescan tree startFile maxDepth analyzeModes reset).result =
          .ok (answer own result)) ∧
      shared.session.overrides = since.getLast?.getD own ∧
      (answer shared.session.overrides result = answer own result ↔
        ∀ options, since.getLast? = some options → options = own) ∧
      ((∀ call ∈ later, calls call.1 = ⟨false, []⟩) →
        answer shared.session.overrides result = answer own result) := by
  intro after
  have left : (shared.stage caller).outcome? = some (.ok result) := by
    rw [finished]
    rfl
  obtain ⟨named, before, tree, later, whole, found⟩ := run.left left
  have single : caller ∉ (before ++ later).map Prod.fst := by
    have nodup := run.nodup_completed
    rw [whole, List.map_append, List.map_cons, List.nodup_middle, ← List.map_append] at nodup
    exact (List.nodup_cons.mp nodup).1
  have own : (after (before ++ [(caller, tree)])).overrides =
      (calls caller).optionsOver (after before).overrides := overrides_inTurn_concat named found
  have kept : shared.session.overrides =
      (ran calls (after (before ++ [(caller, tree)])) later).getLast?.getD
        ((calls caller).optionsOver (after before).overrides) := by
    rw [← own, ← overrides_inTurn]
    exact run.overrides_eq (whole.trans (List.append_cons ..))
  refine ⟨before, tree, later, whole, single, found, ?_, kept, ?_, ?_⟩
  · intro startFile maxDepth analyzeModes reset asked
    apply rescan_eq_answer asked
    rw [settings_inTurn]
    exact found
  · rw [answer_eq_iff, kept]
    cases (ran calls (after (before ++ [(caller, tree)])) later).getLast? <;> simp
  · intro idle
    rw [answer_eq_iff, kept]
    cases latest : (ran calls (after (before ++ [(caller, tree)])) later).getLast? with
    | none => rfl
    | some options =>
        exact (eq_overrides_of_mem_ran idle (List.mem_of_getLast? latest)).trans own

/-- Of two callers, the second is not overtaken, and names the options of its scan. -/
theorem second_answer_consistent : ∃ first second shared,
    Run pairCalls (start rootSettings) (pairTrace first second) shared ∧
      shared.stage true = .finished (.ok second) ∧
      (scanConfigured .empty rootSettings shared.session.overrides).2 = .ok second := by
  obtain ⟨first, second, shared, run, -, -, -, -, -, finished, -⟩ := exists_run_pairTrace_finished
  refine ⟨first, second, shared, run, finished, ?_⟩
  obtain ⟨before, tree, later, whole, -, found, -, -, -, idle⟩ :=
    answer_consistent_iff rootSettings run finished
  have split : [(false, FileTree.empty), (true, .empty)] = before ++ (true, tree) :: later := whole
  obtain ⟨rfl, rfl⟩ : tree = .empty ∧ later = [] := by
    rcases before with _ | ⟨earliest, _ | ⟨next, rest⟩⟩
    · simp only [List.nil_append, List.cons.injEq, Prod.mk.injEq, Bool.false_eq_true,
        false_and] at split
    · simp only [List.cons_append, List.nil_append, List.cons.injEq, Prod.mk.injEq] at split
      exact ⟨split.2.1.2.symm, split.2.2.symm⟩
    · simp only [List.cons_append, List.cons.injEq, List.nil_eq, List.append_eq_nil_iff,
        reduceCtorEq, and_false] at split
  rw [answer_eq_iff.mp (idle (by simp only [List.not_mem_nil, IsEmpty.forall_iff, implies_true]))]
  exact found

/-- The first of two callers answers after the second has been served: it names an option that
its scan was not run with. -/
theorem first_answer_names_second : ∃ first second shared,
    Run pairCalls (start rootSettings) (pairTrace first second) shared ∧
      shared.stage false = .finished (.ok first) ∧
      (∃ later, completed (pairTrace first second) = (false, .empty) :: later) ∧
      (scanConfigured .empty rootSettings [("max_depth", .int 1)]).2 = .ok first ∧
      answer shared.session.overrides first =
        answer [("max_depth", .int 1), ("analyze_modes", .bool true)] first ∧
      answer shared.session.overrides first ≠ answer [("max_depth", .int 1)] first := by
  obtain ⟨first, second, shared, run, -, -, kept, -, finished, -, found⟩ :=
    exists_run_pairTrace_finished
  refine ⟨first, second, shared, run, finished, ⟨_, rfl⟩, found, by rw [kept], ?_⟩
  rw [kept, ne_eq, answer_eq_iff]
  simp only [List.cons.injEq, List.cons_ne_self, and_false, not_false_eq_true]

end Shared

end ModuleAtlas.Session
