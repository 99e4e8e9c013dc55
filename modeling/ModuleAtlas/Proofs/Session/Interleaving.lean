import Mathlib.Data.List.Basic
import Mathlib.Logic.Function.Basic
import ModuleAtlas.Proofs.Build.Steps
import ModuleAtlas.Proofs.Discovery.Reached
import ModuleAtlas.Proofs.Session.Requests

/-! # Scans that are asked for at the same time

Any number of callers ask one session for a scan. A call takes the lock for scans, reads
the options that are kept, scans, leaves its result or its error behind and gives the lock
back; others act between any two of these steps, and readers look at the session at any
time. The lock makes the session that of the calls one after the other, in the order in
which they took it (`ModuleAtlas.Session.Shared.Run.stands`), though the options that a
call keeps are read long before they are written back.
-/

namespace ModuleAtlas.Session

/-- How far a call is: it waits for the lock, holds it, has read its options, has scanned a
tree, has left its outcome behind, or has given the lock back. -/
inductive Stage where
  | waiting
  | holding
  | prepared (options : NamedOptions)
  | scanned (tree : FileTree) (options : NamedOptions) (outcome : Except Failure ScanResult)
  | settled (outcome : Except Failure ScanResult)
  | finished (outcome : Except Failure ScanResult)

/-- Whether a call does without the lock. -/
def Stage.IsOutside : Stage → Prop
  | .waiting | .finished _ => True
  | _ => False

/-- What is done in one step, by a caller or by a reader. -/
inductive Action (Caller : Type) where
  | acquire (caller : Caller)
  | prepare (caller : Caller)
  | scan (caller : Caller) (tree : FileTree)
  | settle (caller : Caller) (tree : FileTree) (outcome : Except Failure ScanResult)
  | release (caller : Caller)
  | readResult (value : Option ScanResult)
  | readOverrides (value : NamedOptions)

namespace Action

variable {Caller : Type}

/-- The caller that takes the lock. -/
def acquired? : Action Caller → Option Caller
  | .acquire caller => some caller
  | _ => none

/-- The call that leaves its outcome behind, with the tree that it scanned. -/
def completed? : Action Caller → Option (Caller × FileTree)
  | .settle caller tree _ => some (caller, tree)
  | _ => none

/-- The result that is left behind. -/
def published? : Action Caller → Option ScanResult
  | .settle _ _ (.ok result) => some result
  | _ => none

private theorem eq_settle_of_published (action : Action Caller) {result : ScanResult}
    (left : action.published? = some result) :
    ∃ caller tree, action = .settle caller tree (.ok result) := by
  unfold published? at left
  split at left
  · cases left
    exact ⟨_, _, rfl⟩
  · cases left

end Action

/-- The callers that take the lock, in this order. -/
def acquired {Caller : Type} (trace : List (Action Caller)) : List Caller :=
  trace.filterMap Action.acquired?

/-- The calls that leave their outcome behind, in this order. -/
def completed {Caller : Type} (trace : List (Action Caller)) : List (Caller × FileTree) :=
  trace.filterMap Action.completed?

/-- The results that are left behind, in this order. -/
def published {Caller : Type} (trace : List (Action Caller)) : List ScanResult :=
  trace.filterMap Action.published?

/-- The callers that got the lock, read off the trace from its first action. -/
theorem acquired_cons {Caller : Type} (action : Action Caller) (trace : List (Action Caller)) :
    acquired (action :: trace) = action.acquired?.toList ++ acquired trace := by
  simp only [acquired, List.filterMap_eq_flatMap_toList, List.flatMap_cons]

/-- The calls that were completed, read off the trace from their first action. -/
theorem completed_cons {Caller : Type} (action : Action Caller) (trace : List (Action Caller)) :
    completed (action :: trace) = action.completed?.toList ++ completed trace := by
  simp only [completed, List.filterMap_eq_flatMap_toList, List.flatMap_cons]

/-- A session that callers share, with the caller that holds the lock for scans. -/
structure Shared (Caller : Type) where
  session : Session
  holder : Option Caller
  stage : Caller → Stage

/-- The session after calls one after the other, each with the tree that it scans. -/
def inTurn {Caller : Type} (calls : Caller → Ask) (session : Session)
    (done : List (Caller × FileTree)) : Session :=
  done.foldl (fun session call =>
    (session.runScan call.2 (calls call.1).reset (calls call.1).given).session) session

private theorem settle_begin (session : Session) (options : NamedOptions)
    (outcome : Except Failure ScanResult) :
    session.begin.settle options outcome = session.settle options outcome := by
  cases outcome <;> rfl

namespace Shared

variable {Caller : Type}

/-- A new session, before any call. -/
def start (settings : Settings) : Shared Caller := ⟨create settings, none, fun _ => .waiting⟩

section Standing

variable {calls : Caller → Ask} {initial : Session} {done : List (Caller × FileTree)}
variable {order : List Caller} {shared : Shared Caller} {caller : Caller}

/-- The call of the holder, if it has not left its outcome behind. -/
def pending (caller : Caller) : Stage → List Caller
  | .holding | .prepared _ | .scanned _ _ _ => [caller]
  | _ => []

/-- How the stage of the holder fits the session, if the calls before have left `settled`
behind. -/
def Fits (ask : Ask) (settled session : Session) : Stage → Prop
  | .holding => session = settled
  | .prepared options => session = settled.begin ∧ options = ask.optionsOver settled.overrides
  | .scanned tree options outcome =>
      session = settled.begin ∧ options = ask.optionsOver settled.overrides ∧
        outcome = (scanConfigured tree settled.settings options).2
  | .settled _ => session = settled
  | _ => False

/-- How a shared session stands after the calls `done` one after the other, if callers took
the lock in an order: nobody holds the lock, or a caller whose call alone is under way. -/
inductive Stands (calls : Caller → Ask) (initial : Session) (done : List (Caller × FileTree))
    (order : List Caller) (shared : Shared Caller) : Prop
  | free (holder : shared.holder = none) (outside : ∀ caller, (shared.stage caller).IsOutside)
      (session : shared.session = inTurn calls initial done)
      (order_eq : order = done.map Prod.fst)
  | held (caller : Caller) (holder : shared.holder = some caller)
      (outside : ∀ other, other ≠ caller → (shared.stage other).IsOutside)
      (named : ∀ option ∈ (calls caller).given, option.1 ∉ requestNames)
      (fits : Fits (calls caller) (inTurn calls initial done) shared.session
        (shared.stage caller))
      (order_eq : order = done.map Prod.fst ++ pending caller (shared.stage caller))

/-- Before the first action no call is done and none has the lock. -/
theorem stands_start (calls : Caller → Ask) (settings : Settings) :
    Stands calls (create settings) [] [] (start settings) :=
  .free rfl (fun _ => trivial) rfl rfl

/-- A call that needs the lock is that of the holder. -/
theorem Stands.held_of_inside (stands : Stands calls initial done order shared) {stage : Stage}
    (here : shared.stage caller = stage) (inside : ¬ stage.IsOutside) :
    shared.holder = some caller ∧
      (∀ other, other ≠ caller → (shared.stage other).IsOutside) ∧
      (∀ option ∈ (calls caller).given, option.1 ∉ requestNames) ∧
      Fits (calls caller) (inTurn calls initial done) shared.session stage ∧
      order = done.map Prod.fst ++ pending caller stage := by
  subst here
  cases stands with
  | free holder outside session order_eq => exact absurd (outside caller) inside
  | held holding holder outside named fits order_eq =>
      by_cases same : caller = holding
      · subst same
        exact ⟨holder, outside, named, fits, order_eq⟩
      · exact absurd (outside caller same) inside

private theorem Fits.session_eq {ask : Ask} {settled session : Session} {stage : Stage}
    (fits : Fits ask settled session stage) :
    session = { settled with phase := session.phase } := by
  cases stage with
  | waiting | finished => exact fits.elim
  | holding | settled =>
      have same : session = settled := fits
      rw [same]
  | prepared | scanned =>
      rw [fits.1]
      rfl

/-- But for its phase, the session is that of the calls one after the other. -/
theorem Stands.session_eq (stands : Stands calls initial done order shared) :
    shared.session = { inTurn calls initial done with phase := shared.session.phase } := by
  cases stands with
  | free holder outside session order_eq => rw [session]
  | held caller holder outside named fits order_eq => exact fits.session_eq

/-- The calls done are the first ones that got the lock, in that order. -/
theorem Stands.isPrefix (stands : Stands calls initial done order shared) :
    done.map Prod.fst <+: order := by
  cases stands with
  | free holder outside session order_eq => exact order_eq ▸ List.prefix_rfl
  | held caller holder outside named fits order_eq => exact order_eq ▸ List.prefix_append _ _

/-- A last call with well-named options is one more attempt on the session. -/
theorem inTurn_concat (named : ∀ option ∈ (calls caller).given, option.1 ∉ requestNames)
    (tree : FileTree) :
    inTurn calls initial (done ++ [(caller, tree)]) =
      (inTurn calls initial done).attempt tree (calls caller) := by
  rw [inTurn, List.foldl_append]
  exact runScan_eq_attempt _ tree (calls caller).reset named

end Standing

variable [DecidableEq Caller]

/-- One step. The tree may be any at each scan. A call that is refused for the names of its
options takes no step. -/
inductive Step (calls : Caller → Ask) : Shared Caller → Action Caller → Shared Caller → Prop
  | acquire {shared : Shared Caller} {caller : Caller}
      (named : ∀ option ∈ (calls caller).given, option.1 ∉ requestNames)
      (free : shared.holder = none) (stage : shared.stage caller = .waiting) :
      Step calls shared (.acquire caller)
        { shared with
          holder := some caller
          stage := Function.update shared.stage caller .holding }
  | prepare {shared : Shared Caller} {caller : Caller}
      (stage : shared.stage caller = .holding) :
      Step calls shared (.prepare caller)
        { shared with
          session := shared.session.begin
          stage := Function.update shared.stage caller
            (.prepared (shared.session.optionsFor (calls caller).reset (calls caller).given)) }
  | scan {shared : Shared Caller} {caller : Caller} {options : NamedOptions}
      (stage : shared.stage caller = .prepared options) (tree : FileTree) :
      Step calls shared (.scan caller tree)
        { shared with
          stage := Function.update shared.stage caller
            (.scanned tree options (scanConfigured tree shared.session.settings options).2) }
  | settle {shared : Shared Caller} {caller : Caller} {tree : FileTree} {options : NamedOptions}
      {outcome : Except Failure ScanResult}
      (stage : shared.stage caller = .scanned tree options outcome) :
      Step calls shared (.settle caller tree outcome)
        { shared with
          session := shared.session.settle options outcome
          stage := Function.update shared.stage caller (.settled outcome) }
  | release {shared : Shared Caller} {caller : Caller} {outcome : Except Failure ScanResult}
      (stage : shared.stage caller = .settled outcome) :
      Step calls shared (.release caller)
        { shared with
          holder := none
          stage := Function.update shared.stage caller (.finished outcome) }
  | readResult (shared : Shared Caller) :
      Step calls shared (.readResult shared.session.result) shared
  | readOverrides (shared : Shared Caller) :
      Step calls shared (.readOverrides shared.session.overrides) shared

/-- Steps one after the other, with what is done in them. -/
inductive Run (calls : Caller → Ask) :
    Shared Caller → List (Action Caller) → Shared Caller → Prop
  | nil (shared : Shared Caller) : Run calls shared [] shared
  | cons {first middle last : Shared Caller} {action : Action Caller}
      {trace : List (Action Caller)} (step : Step calls first action middle)
      (run : Run calls middle trace last) : Run calls first (action :: trace) last

variable {calls : Caller → Ask} {initial : Session} {done : List (Caller × FileTree)}
variable {order : List Caller} {shared next first last : Shared Caller} {caller : Caller}
variable {action : Action Caller} {trace : List (Action Caller)}

/-- A run reaches the step of each action after what was done before. -/
theorem Run.exists_step {earlier later : List (Action Caller)}
    (run : Run calls first (earlier ++ action :: later) last) :
    ∃ middle next, Run calls first earlier middle ∧ Step calls middle action next := by
  induction earlier generalizing first with
  | nil =>
      cases run with
      | cons step run => exact ⟨_, _, .nil _, step⟩
  | cons action earlier ih =>
      cases run with
      | cons step run =>
          obtain ⟨middle, next, front, here⟩ := ih run
          exact ⟨middle, next, .cons step front, here⟩

/-- The call of the holder comes to a stage that fits the session again. -/
theorem stands_of_update {stage : Stage} (holder : next.holder = some caller)
    (outside : ∀ other, other ≠ caller → (shared.stage other).IsOutside)
    (moved : next.stage = Function.update shared.stage caller stage)
    (named : ∀ option ∈ (calls caller).given, option.1 ∉ requestNames)
    (fits : Fits (calls caller) (inTurn calls initial done) next.session stage)
    (order_eq : order = done.map Prod.fst ++ pending caller stage) :
    Stands calls initial done order next := by
  refine .held caller holder (fun other differs => ?_) named ?_ ?_
  · rw [moved, Function.update_of_ne differs]
    exact outside other differs
  · rw [moved, Function.update_self]
    exact fits
  · rw [moved, Function.update_self]
    exact order_eq

/-- A step keeps how a shared session stands, after one more call if one is completed. -/
theorem Stands.step (stands : Stands calls initial done order shared)
    (step : Step calls shared action next) :
    Stands calls initial (done ++ action.completed?.toList) (order ++ action.acquired?.toList)
      next := by
  cases step with
  | acquire named free stage =>
      cases stands with
      | held holding holder => cases free.symm.trans holder
      | free holder outside session order_eq =>
          rw [order_eq]
          exact stands_of_update rfl (fun other _ => outside other) rfl named
            (by simpa [Action.completed?, Fits] using session)
            (by simp [Action.completed?, Action.acquired?, pending])
  | prepare stage =>
      obtain ⟨holder, outside, named, fits, order_eq⟩ := stands.held_of_inside stage id
      have settled : shared.session = inTurn calls initial done := fits
      simp only [Action.completed?, Action.acquired?, Option.toList_none, List.append_nil]
      exact stands_of_update holder outside rfl named ⟨by rw [settled], by rw [settled]; rfl⟩
        order_eq
  | scan stage tree =>
      obtain ⟨holder, outside, named, ⟨begun, options_eq⟩, order_eq⟩ :=
        stands.held_of_inside stage id
      simp only [Action.completed?, Action.acquired?, Option.toList_none, List.append_nil]
      exact stands_of_update holder outside rfl named
        ⟨begun, options_eq, by rw [begun]; rfl⟩ order_eq
  | @settle caller tree options outcome stage =>
      -- The options were read steps ago, and still are those over the session as it is.
      obtain ⟨holder, outside, named, ⟨begun, options_eq, outcome_eq⟩, order_eq⟩ :=
        stands.held_of_inside stage id
      refine stands_of_update holder outside rfl named ?_ ?_
      · rw [Action.completed?, Option.toList_some]
        show shared.session.settle options outcome = _
        rw [inTurn_concat named, begun, settle_begin, attempt, outcome_eq, options_eq]
      · simp [order_eq, Action.completed?, Action.acquired?, pending]
  | @release caller outcome stage =>
      obtain ⟨holder, outside, named, fits, order_eq⟩ := stands.held_of_inside stage id
      simp only [Action.completed?, Action.acquired?, Option.toList_none, List.append_nil]
      have none_inside : ∀ other,
          (Function.update shared.stage caller (.finished outcome) other).IsOutside :=
        (Function.forall_update_iff shared.stage fun _ stage => stage.IsOutside).mpr
          ⟨trivial, outside⟩
      exact .free rfl none_inside fits (by simpa only [pending, List.append_nil] using order_eq)
  | readResult => simpa [Action.completed?, Action.acquired?] using stands
  | readOverrides => simpa [Action.completed?, Action.acquired?] using stands

/-- Callers that take their steps in any order leave the session of their calls one after
the other. -/
theorem Run.stands (run : Run calls first trace last)
    (stands : Stands calls initial done order first) :
    Stands calls initial (done ++ completed trace) (order ++ acquired trace) last := by
  induction run generalizing done order with
  | nil => simpa only [completed, List.filterMap_nil, List.append_nil, acquired] using stands
  | @cons first middle last action trace step run ih =>
      have later := ih (stands.step step)
      rwa [List.append_assoc, List.append_assoc, ← completed_cons, ← acquired_cons] at later

private theorem Step.settings_eq (step : Step calls shared action next) :
    next.session.settings = shared.session.settings := by
  cases step with
  | @settle caller tree options outcome stage => cases outcome <;> rfl
  | acquire | prepare | scan | release | readResult | readOverrides => rfl

private theorem Run.settings_eq (run : Run calls first trace last) :
    last.session.settings = first.session.settings := by
  induction run with
  | nil => rfl
  | cons step run ih => exact ih.trans step.settings_eq

private theorem Step.result_eq (step : Step calls shared action next) :
    next.session.result = action.published?.or shared.session.result := by
  cases step with
  | @settle caller tree options outcome stage => cases outcome <;> rfl
  | acquire | prepare | scan | release | readResult | readOverrides => rfl

/-- The result is the one that was left behind last. -/
theorem Run.result_eq (run : Run calls first trace last) :
    last.session.result = (published trace).getLast?.or first.session.result := by
  induction run with
  | nil => rfl
  | @cons first middle last action trace step run ih =>
      rw [ih, step.result_eq]
      cases here : action.published? with
      | none =>
          simp only [published, List.getLast?_filterMap, Option.none_or, here,
            List.filterMap_cons_none]
      | some result =>
          simp only [published, List.getLast?_filterMap, Option.some_or, Option.or_some, here,
            Option.some.injEq, List.filterMap_cons_some, List.getLast?_cons]

/-- What a caller leaves behind is what the scan of its tree gave. -/
theorem Run.exists_options {settings : Settings} {tree : FileTree}
    {outcome : Except Failure ScanResult} (run : Run calls (start settings) trace last)
    (member : .settle caller tree outcome ∈ trace) :
    ∃ options, (scanConfigured tree settings options).2 = outcome := by
  obtain ⟨earlier, later, whole⟩ := List.append_of_mem member
  rw [whole] at run
  obtain ⟨middle, next, front, step⟩ := run.exists_step
  cases step with
  | @settle caller tree options outcome stage =>
      have stands := front.stands (stands_start calls settings)
      obtain ⟨-, -, -, ⟨begun, -, outcome_eq⟩, -⟩ := stands.held_of_inside stage id
      have configured : (inTurn calls (create settings) (completed earlier)).settings = settings :=
        (congrArg Session.settings begun).symm.trans front.settings_eq
      exact ⟨options, by rw [outcome_eq, List.nil_append, configured]⟩

/-- The lock can become free after some steps. -/
def CanRelease (calls : Caller → Ask) (shared : Shared Caller) : Prop :=
  ∃ trace last, Run calls shared trace last ∧ last.holder = none

private theorem Step.canRelease (step : Step calls shared action next)
    (later : CanRelease calls next) :
    CanRelease calls shared := by
  obtain ⟨trace, last, run, free⟩ := later
  exact ⟨action :: trace, last, .cons step run, free⟩

private theorem canRelease_of_settled {outcome : Except Failure ScanResult}
    (stage : shared.stage caller = .settled outcome) : CanRelease calls shared :=
  (Step.release stage).canRelease ⟨[], _, .nil _, rfl⟩

private theorem canRelease_of_scanned {tree : FileTree} {options : NamedOptions}
    {outcome : Except Failure ScanResult}
    (stage : shared.stage caller = .scanned tree options outcome) : CanRelease calls shared :=
  (Step.settle stage).canRelease (canRelease_of_settled (Function.update_self ..))

private theorem canRelease_of_prepared {options : NamedOptions}
    (stage : shared.stage caller = .prepared options) : CanRelease calls shared :=
  (Step.scan stage .empty).canRelease (canRelease_of_scanned (Function.update_self ..))

private theorem canRelease_of_holding (stage : shared.stage caller = .holding) :
    CanRelease calls shared :=
  (Step.prepare stage).canRelease (canRelease_of_prepared (Function.update_self ..))

/-- A call that holds the lock can go on until it gives the lock back. -/
theorem Stands.canRelease (stands : Stands calls initial done order shared) :
    CanRelease calls shared := by
  cases stands with
  | free holder outside session order_eq => exact ⟨[], shared, .nil shared, holder⟩
  | held caller holder outside named fits order_eq =>
      cases stage : shared.stage caller with
      | waiting | finished =>
          rw [stage] at fits
          exact fits.elim
      | holding => exact canRelease_of_holding stage
      | prepared options => exact canRelease_of_prepared stage
      | scanned tree options outcome => exact canRelease_of_scanned stage
      | settled outcome => exact canRelease_of_settled stage

/-- Callers of any number that take their steps in any order, with readers between them,
leave a session that is at any time, but for its phase, the one after the completed calls
one after the other, each with the tree that it scanned. These calls are the first ones of
those that took the lock, in the same order, and once the lock is free they are all of them
and the phase agrees too; the lock can always become free. A reader of the result obtains
the one that was left behind last, by a call whose scan succeeded, or none if there is none
yet, and a reader of the options those that the calls completed so far have left. -/
theorem run_serializes (settings : Settings) {trace : List (Action Caller)}
    (run : Run calls (start settings) trace shared) :
    let after := inTurn calls (create settings)
    shared.session = { after (completed trace) with phase := shared.session.phase } ∧
    (completed trace).map Prod.fst <+: acquired trace ∧
    (shared.holder = none →
      (completed trace).map Prod.fst = acquired trace ∧
        shared.session = after (completed trace)) ∧
    (∃ rest last, Run calls shared rest last ∧ last.holder = none) ∧
    (∀ earlier value later, trace = earlier ++ .readResult value :: later →
      value = (published earlier).getLast? ∧
      ∀ result, value = some result → ∃ caller tree options,
        .settle caller tree (.ok result) ∈ earlier ∧
          (scanConfigured tree settings options).2 = .ok result) ∧
    ∀ earlier value later, trace = earlier ++ .readOverrides value :: later →
      value = (after (completed earlier)).overrides := by
  intro after
  have stands : Stands calls (create settings) (completed trace) (acquired trace) shared :=
    run.stands (stands_start calls settings)
  refine ⟨stands.session_eq, stands.isPrefix, fun free => ?_, stands.canRelease,
    fun earlier value later whole => ?_, fun earlier value later whole => ?_⟩
  · cases stands with
    | free holder outside session order_eq => exact ⟨order_eq.symm, session⟩
    | held caller holder => cases free.symm.trans holder
  · subst whole
    obtain ⟨middle, next, front, step⟩ := run.exists_step
    cases step with
    | readResult =>
        have latest : middle.session.result = (published earlier).getLast? :=
          front.result_eq.trans (Option.or_none ..)
        refine ⟨latest, fun result found => ?_⟩
        rw [latest] at found
        obtain ⟨action, member, left⟩ :=
          List.mem_filterMap.mp (List.mem_of_getLast? found)
        obtain ⟨caller, tree, rfl⟩ := action.eq_settle_of_published left
        obtain ⟨options, scanned⟩ := front.exists_options member
        exact ⟨caller, tree, options, member, scanned⟩
  · subst whole
    obtain ⟨middle, next, front, step⟩ := run.exists_step
    cases step with
    | readOverrides =>
        rw [(front.stands (stands_start calls settings)).session_eq]
        rfl

/-- Settings for the scan of the root directory. -/
def rootSettings : Settings where
  scanPath := .mk .slash []
  filter := {}
  maxDepth := none
  analyzeModes := false
  externalEdges := "strict"
  outputFile := "dependency-graph.json"
  logLevel := "INFO"
  watch := true
  debounceSeconds := 2

/-- Two callers, each of which gives one option. -/
def pairCalls : Bool → Ask
  | false => ⟨false, [("max_depth", .int 1)]⟩
  | true => ⟨false, [("analyze_modes", .bool true)]⟩

/-- The settings lead to the top of the tree, which has nothing in it to start from. -/
private theorem configured_rootSettings :
    rootSettings.rootDir .empty = rootSettings.scanPath ∧
      rootSettings.scanOptions .empty =
        { filter := {}, startFile := none, limit := .unlimited, analyzeModes := false,
          externalEdges := "strict" } := by
  have spelled : rootSettings.scanPath.toString = "/" := by decide +kernel
  have directory : ¬ FileTree.empty.isRegular rootSettings.scanPath.toString = true := by
    rw [spelled]
    exact ne_true_of_eq_false (FileTree.isRegular_slash _)
  refine ⟨if_neg directory, ?_⟩
  rw [Settings.scanOptions, Settings.startFile, if_neg directory]
  rfl

private theorem exists_scan_empty {options : ScanOptions} (unnamed : options.startFile = none)
    (strict : options.externalEdges = "strict") :
    ∃ result, (scan .empty rootSettings.scanPath options).2 = .ok result := by
  obtain ⟨found, discovery⟩ := @FileTree.discover_empty rootSettings.scanPath (by decide +kernel)
    options.filter
  have root : Build.absoluteRoot .empty rootSettings.scanPath = rootSettings.scanPath := by
    decide +kernel
  have policy : ExternalPolicy.ofName? options.externalEdges = some .strict := by
    rw [strict]
    rfl
  let project : Project := ⟨.empty, rootSettings.scanPath, .strict⟩
  let request : BuildRequest := ⟨options.filter, none, options.limit⟩
  have succeeds : (Build.build project request Store.empty).failure = none := by
    rw [@Build.build_eq_ended project request found [] discovery, Build.failure_ended,
      Build.traversal_of_unnamed rfl]
    rfl
  unfold scan
  dsimp only
  rw [policy]
  dsimp only
  rw [root, unnamed, succeeds]
  exact ⟨_, rfl⟩

private theorem exists_scanConfigured_rootSettings :
    (∃ result, (scanConfigured .empty rootSettings [("max_depth", .int 1)]).2 = .ok result) ∧
      ∃ result, (scanConfigured .empty rootSettings
        [("max_depth", .int 1), ("analyze_modes", .bool true)]).2 = .ok result := by
  obtain ⟨root, configured⟩ := configured_rootSettings
  constructor
  all_goals
    rw [scanConfigured, root, configured]
    exact exists_scan_empty rfl rfl

/-- The two callers one after the other, with readers between their steps. -/
def pairTrace (first second : ScanResult) : List (Action Bool) :=
  [.acquire false, .prepare false, .readResult none, .scan false .empty,
    .settle false .empty (.ok first), .readOverrides [("max_depth", .int 1)], .release false,
    .acquire true, .prepare true, .readResult (some first), .scan true .empty,
    .settle true .empty (.ok second), .release true]

/-- Two callers that overlap can both finish, the one that came second with both options. -/
theorem exists_run_pairTrace_finished : ∃ first second shared,
    Run pairCalls (start rootSettings) (pairTrace first second) shared ∧
      shared.holder = none ∧ shared.session.scanCount = 2 ∧
      shared.session.overrides = [("max_depth", .int 1), ("analyze_modes", .bool true)] ∧
      shared.session.result = some second ∧
      shared.stage false = .finished (.ok first) ∧ shared.stage true = .finished (.ok second) ∧
      (scanConfigured .empty rootSettings [("max_depth", .int 1)]).2 = .ok first := by
  obtain ⟨⟨first, scannedFirst⟩, second, scannedSecond⟩ := exists_scanConfigured_rootSettings
  -- The scans stay closed here: their outcomes are put in when they are left behind.
  have settledFirst := congrArg (Stage.scanned .empty [("max_depth", .int 1)]) scannedFirst
  have settledSecond := congrArg
    (Stage.scanned .empty [("max_depth", .int 1), ("analyze_modes", .bool true)]) scannedSecond
  exact ⟨first, second, _,
    .cons (.acquire (by decide) rfl rfl) <| .cons (.prepare rfl) <| .cons (.readResult _) <|
    .cons (.scan rfl .empty) <| .cons (.settle settledFirst) <| .cons (.readOverrides _) <|
    .cons (.release rfl) <| .cons (.acquire (by decide) rfl rfl) <| .cons (.prepare rfl) <|
    .cons (.readResult _) <| .cons (.scan rfl .empty) <| .cons (.settle settledSecond) <|
    .cons (.release rfl) <| .nil _, rfl, rfl, rfl, rfl, rfl, rfl, scannedFirst⟩

/-- The run of two overlapping callers leaves the session of the two calls in turn. -/
theorem pairTrace_serializes : ∃ first second shared,
    Run pairCalls (start rootSettings) (pairTrace first second) shared ∧
      shared.session =
        inTurn pairCalls (create rootSettings) [(false, .empty), (true, .empty)] ∧
      shared.session.scanCount = 2 ∧
      shared.session.overrides = [("max_depth", .int 1), ("analyze_modes", .bool true)] ∧
      shared.session.result = some second := by
  obtain ⟨first, second, shared, run, free, count, kept, result, -⟩ :=
    exists_run_pairTrace_finished
  have serial := (run_serializes rootSettings run).2.2.1 free
  exact ⟨first, second, shared, run, serial.2, count, kept, result⟩

end Shared

end ModuleAtlas.Session
