import Mathlib.Logic.Relation
import ModuleAtlas.Proofs.Build.Effects

/-! # Builds as sequences of steps

A traversal is a sequence of steps between pairs of a progress and a stack of
frames: it starts at a file, closes a frame that has no references left, passes a
reference that leads nowhere new, or descends to the file that it leads to. Every
traversal with a comparable limit runs to an empty stack
(`ModuleAtlas.Build.exists_steps_of_run`), and so the graph of every build, also
of one that fails, is that of a sequence of steps from the empty graph to an empty
stack (`ModuleAtlas.Build.exists_unfolds`). What every step preserves therefore
holds of every build.
-/

namespace ModuleAtlas

/-- A limit that every depth can be compared with. -/
def DepthLimit.Comparable (limit : DepthLimit) : Prop :=
  ∀ depth, ∃ exceeded, limit.isExceededBy depth = .ok exceeded

/-- A limit that was compared once can be compared with every depth. -/
theorem DepthLimit.comparable_of_isExceededBy {limit : DepthLimit} {depth : Nat} {exceeded : Bool}
    (compared : limit.isExceededBy depth = .ok exceeded) : limit.Comparable := by
  intro other
  cases limit with
  | unlimited => exact ⟨false, rfl⟩
  | atMost bound => exact ⟨_, rfl⟩
  | other value =>
      cases value with
      | bool bound => exact ⟨_, rfl⟩
      | real bound => exact ⟨_, rfl⟩
      | _ => cases compared

/-- No natural bound excludes the starting points themselves. -/
theorem DepthLimit.isExceededBy_zero (bound : Nat) :
    (DepthLimit.atMost bound).isExceededBy 0 = .ok false :=
  congrArg Except.ok (decide_eq_false (Int.not_lt.mpr (Int.natCast_nonneg bound)))

namespace Build

/-- The name below the root of a start file, if it is a regular file there. -/
def startPoint? (project : Project) (start : String) : Except Failure (Option String) :=
  let path := (project.root.join start).normalize
  match project.tree.isFile? path.toString, path.relativeTo? project.root with
  | .error failure, _ => .error failure
  | .ok true, some parts => .ok (some (Path.relativeText parts))
  | _, _ => .ok none

/-- The files that a build starts from: the start file if one is given, or else
every discovered file. -/
def startingPoints (project : Project) (start : Option String) (files : List String) :
    Except Failure (List String) :=
  match start with
  | some start => if start = "" then .ok files else (startPoint? project start).map Option.toList
  | none => .ok files

/-- One step of a traversal. A file is started from while it is fresh, or before
any other file was opened. -/
inductive Step (task : Task) (points : List String) :
    Progress × List Frame → Progress × List Frame → Prop where
  | start {file : String} {before after : Progress} {opened : Option Frame}
      (chosen : file ∈ points) (first : file ∈ before.fresh ∨ before.openings = [])
      (entered : Entered task 0 file before after opened) :
      Step task points (before, []) (after, opened.toList)
  | close (file : String) (depth : Nat) (frames : List Frame) (progress : Progress) :
      Step task points (progress, ⟨file, depth, []⟩ :: frames) (progress, frames)
  | pass {file reference : String} {before after : Progress} {target : Option String}
      (depth : Nat) (references : List String) (frames : List Frame)
      (recorded : Recorded task file reference before after target)
      (stale : ∀ next ∈ target, next ∉ before.fresh) :
      Step task points (before, ⟨file, depth, reference :: references⟩ :: frames)
        (after, ⟨file, depth, references⟩ :: frames)
  | descend {file reference next : String} {before between after : Progress} {depth : Nat}
      {opened : Option Frame} (references : List String) (frames : List Frame)
      (recorded : Recorded task file reference before between (some next))
      (fresh : next ∈ before.fresh) (entered : Entered task (depth + 1) next between after opened) :
      Step task points (before, ⟨file, depth, reference :: references⟩ :: frames)
        (after, opened.toList ++ ⟨file, depth, references⟩ :: frames)

/-- A sequence of steps of a traversal. -/
abbrev Steps (task : Task) (points : List String) :
    Progress × List Frame → Progress × List Frame → Prop :=
  Relation.ReflTransGen (Step task points)

/-- A file is entered without failure only under a limit that numbers can be held against. -/
theorem Entered.comparable {task : Task} {depth : Nat} {file : String} {before after : Progress}
    {opened : Option Frame} (entered : Entered task depth file before after opened) :
    task.limit.Comparable := by
  cases entered with
  | beyond limit => exact DepthLimit.comparable_of_isExceededBy limit
  | irregular limit => exact DepthLimit.comparable_of_isExceededBy limit
  | unreadable limit => exact DepthLimit.comparable_of_isExceededBy limit
  | opened limit => exact DepthLimit.comparable_of_isExceededBy limit

/-- A file that a reference led to is regular, so entering it does not fail. -/
theorem enter_ne_error {task : Task} {file reference next : String} {depth : Nat}
    {before between after : Progress} {failure : Failure} (comparable : task.limit.Comparable)
    (recorded : Recorded task file reference before between (some next)) :
    enter task depth next between ≠ (after, .error failure) := by
  intro entered
  have led := recorded.target
  have regular : task.project.tree.isFile? (task.project.fullPath next) = .ok true := by
    cases judged : (task.project.verdict file reference).2 with
    | dropped => simp only [Verdict.newTarget, judged, reduceCtorEq] at led
    | external id => simp only [Verdict.newTarget, judged, reduceCtorEq] at led
    | internal target =>
        rw [judged, Verdict.newTarget] at led
        split at led
        · cases led
        · cases led
          exact Project.isFile?_of_verdict_internal judged
  rcases enter_eq_error entered with ⟨incomparable, -⟩ | ⟨-, unprobed, -⟩
  · obtain ⟨exceeded, compared⟩ := comparable depth
    rw [compared] at incomparable
    cases incomparable
  · rw [regular] at unprobed
    cases unprobed

/-- With no frame left the traversal is over. -/
theorem run_nil (task : Task) (progress : Progress) :
    run task progress [] = (progress, none) := by
  rw [run.eq_def]

/-- A frame without references left is dropped. -/
theorem run_close (task : Task) (progress : Progress) (file : String) (depth : Nat)
    (frames : List Frame) :
    run task progress (⟨file, depth, []⟩ :: frames) = run task progress frames := by
  rw [run.eq_def]

/-- A reference that leads to no fresh file is recorded, and its frame goes on. -/
theorem run_pass {task : Task} {file reference : String} {progress noted : Progress}
    {target : Option String} (added : addReference task file reference progress = (noted, target))
    (stale : ∀ next ∈ target, next ∉ noted.fresh) (depth : Nat) (references : List String)
    (frames : List Frame) :
    run task progress (⟨file, depth, reference :: references⟩ :: frames) =
      run task noted (⟨file, depth, references⟩ :: frames) := by
  rw [run.eq_def]
  dsimp only
  split
  · next other same =>
      cases added.symm.trans same
      rfl
  · next other next same =>
      cases added.symm.trans same
      rw [dif_neg (stale next rfl)]

/-- A reference to a fresh file is recorded, and the file is entered before its frame goes on. -/
theorem run_descend {task : Task} {file reference target : String} {depth : Nat}
    {progress noted next : Progress} {opened : Option Frame}
    (added : addReference task file reference progress = (noted, some target))
    (fresh : target ∈ noted.fresh)
    (entered : enter task (depth + 1) target noted = (next, .ok opened))
    (references : List String) (frames : List Frame) :
    run task progress (⟨file, depth, reference :: references⟩ :: frames) =
      run task next (opened.toList ++ ⟨file, depth, references⟩ :: frames) := by
  rw [run.eq_def]
  dsimp only
  split
  · next other same => cases added.symm.trans same
  · next other found same =>
      cases added.symm.trans same
      rw [dif_pos fresh]
      split
      · next after failure failed => cases entered.symm.trans failed
      · next after none => cases entered.symm.trans none; rfl
      · next after frame some => cases entered.symm.trans some; rfl

/-- A failed entry ends the traversal where it stands. -/
theorem run_fail {task : Task} {file reference target : String} {depth : Nat}
    {progress noted next : Progress} {failure : Failure}
    (added : addReference task file reference progress = (noted, some target))
    (fresh : target ∈ noted.fresh)
    (entered : enter task (depth + 1) target noted = (next, .error failure))
    (references : List String) (frames : List Frame) :
    run task progress (⟨file, depth, reference :: references⟩ :: frames) =
      (next, some failure) := by
  rw [run.eq_def]
  dsimp only
  split
  · next other same => cases added.symm.trans same
  · next other found same =>
      cases added.symm.trans same
      rw [dif_pos fresh]
      split
      · next after other failed => cases entered.symm.trans failed; rfl
      · next after none => cases entered.symm.trans none
      · next after frame some => cases entered.symm.trans some

/-- What holds of every stack of frames if it holds of the empty one and is carried
back along the four moves of a traversal, and where a move fails. -/
theorem run_induction (task : Task) {motive : Progress → List Frame → Prop}
    (nil : ∀ progress, motive progress [])
    (close : ∀ progress file depth frames, motive progress frames →
      motive progress (⟨file, depth, []⟩ :: frames))
    (pass : ∀ {progress noted file reference target} depth references frames,
      addReference task file reference progress = (noted, target) →
      (∀ next ∈ target, next ∉ noted.fresh) → motive noted (⟨file, depth, references⟩ :: frames) →
      motive progress (⟨file, depth, reference :: references⟩ :: frames))
    (fail : ∀ {progress noted next file reference target failure} depth references frames,
      addReference task file reference progress = (noted, some target) → target ∈ noted.fresh →
      enter task (depth + 1) target noted = (next, .error failure) →
      motive progress (⟨file, depth, reference :: references⟩ :: frames))
    (descend : ∀ {progress noted next file reference target opened} depth references frames,
      addReference task file reference progress = (noted, some target) → target ∈ noted.fresh →
      enter task (depth + 1) target noted = (next, .ok opened) →
      motive next (opened.toList ++ ⟨file, depth, references⟩ :: frames) →
      motive progress (⟨file, depth, reference :: references⟩ :: frames))
    (progress : Progress) (frames : List Frame) : motive progress frames := by
  induction progress, frames using run.induct task with
  | case1 progress => exact nil progress
  | case2 progress file depth frames ih => exact close progress file depth frames ih
  | case3 progress file depth reference references frames noted added ih =>
      exact pass depth references frames added nofun ih
  | case4 progress file depth reference references frames noted target added fresh next failure
      failed => exact fail depth references frames added fresh failed
  | case5 progress file depth reference references frames noted target added fresh next
      entered ih =>
      exact descend depth references frames added fresh entered ih
  | case6 progress file depth reference references frames noted target added fresh next frame
      entered ih => exact descend depth references frames added fresh entered ih
  | case7 progress file depth reference references frames noted target added stale ih =>
      refine pass depth references frames added ?_ ih
      rintro next ⟨⟩
      exact stale

/-- A traversal with a comparable limit runs to an empty stack, step by step. -/
theorem exists_steps_of_run (task : Task) (points : List String)
    (comparable : task.limit.Comparable) (progress : Progress) (frames : List Frame) :
    ∃ final, run task progress frames = (final, none) ∧
      Steps task points (progress, frames) (final, []) := by
  induction progress, frames using run_induction task with
  | nil progress => exact ⟨progress, run_nil task progress, .refl⟩
  | close progress file depth frames ih =>
      obtain ⟨final, done, steps⟩ := ih
      exact ⟨final, by rw [run_close, done], .head (.close file depth frames progress) steps⟩
  | pass depth references frames added stale ih =>
      obtain ⟨final, done, steps⟩ := ih
      have recorded := recorded_addReference added
      refine ⟨final, ?_, .head (.pass depth references frames recorded (recorded.fresh ▸ stale))
        steps⟩
      rw [run_pass added stale, done]
  | fail depth references frames added fresh failed =>
      exact absurd failed (enter_ne_error comparable (recorded_addReference added))
  | descend depth references frames added fresh entered ih =>
      obtain ⟨final, done, steps⟩ := ih
      have recorded := recorded_addReference added
      refine ⟨final, ?_, .head (.descend references frames recorded (recorded.fresh ▸ fresh)
        (entered_of_enter entered)) steps⟩
      rw [run_descend added fresh entered, done]

/-- A starting point that cannot be entered ends the traversal with its failure. -/
theorem traverse_of_error {task : Task} {file : String} {before after : Progress}
    {failure : Failure} (failed : enter task 0 file before = (after, .error failure)) :
    traverse task file before = (after, some failure) := by
  simp only [traverse, failed]

/-- A starting point that is entered is traversed from the frame it opens, if it opens one. -/
theorem traverse_of_enter {task : Task} {file : String} {before after : Progress}
    {opened : Option Frame} (entered : enter task 0 file before = (after, .ok opened)) :
    traverse task file before = run task after opened.toList := by
  cases opened with
  | none => simp only [traverse, entered, Option.toList_none, run_nil]
  | some frame => simp only [traverse, entered, Option.toList_some]

/-- A traversal from one file fails only where the file itself is refused. -/
theorem isFile?_of_traverse_failed {task : Task} {file : String} {progress : Progress}
    {failure : Failure} (comparable : task.limit.Comparable)
    (failed : (traverse task file progress).2 = some failure) :
    task.project.tree.isFile? (task.project.fullPath file) = .error failure := by
  rcases entered : enter task 0 file progress with ⟨after, reason | opened⟩
  · rw [traverse_of_error entered] at failed
    cases failed
    rcases enter_eq_error entered with ⟨incomparable, -⟩ | ⟨-, unprobed, -⟩
    · obtain ⟨exceeded, compared⟩ := comparable 0
      cases compared.symm.trans incomparable
    · exact unprobed
  · obtain ⟨final, done, -⟩ := exists_steps_of_run task [] comparable after opened.toList
    rw [traverse_of_enter entered, done] at failed
    cases failed

/-- A file was started from before the last stage of a traversal, or it is one of
the known files and was stale when its turn came. -/
inductive Tried (task : Task) (points known : List String) (file : String) (final : Progress) :
    Prop where
  | entered {before after : Progress} {opened : Option Frame}
      (entered : Entered task 0 file before after opened)
      (rest : Steps task points (after, opened.toList) (final, []))
  | stale {before : Progress} (listed : file ∈ known) (stale : file ∉ before.fresh)
      (rest : Steps task points (before, []) (final, []))

/-- What was tried at a point of the run stays tried to the end of it. -/
theorem Tried.trans {task : Task} {points known : List String} {file : String}
    {middle final : Progress} (tried : Tried task points known file middle)
    (steps : Steps task points (middle, []) (final, [])) :
    Tried task points known file final := by
  cases tried with
  | entered entered rest => exact .entered entered (rest.trans steps)
  | stale listed stale rest => exact .stale listed stale (rest.trans steps)

/-- Two stages of a traversal at which the same was recorded. -/
structure SameRecord (left right : Progress) : Prop where
  graph : left.graph = right.graph
  operations : left.operations = right.operations
  openings : left.openings = right.openings

private theorem sameRecord_note (progress : Progress) (notice : Notice) :
    SameRecord (progress.note notice) progress :=
  ⟨rfl, Progress.operations_note _ _, Progress.openings_note _ _⟩

/-- A traversal from one file runs to an empty stack, or it fails before anything
was recorded. -/
theorem traverse_cases (task : Task) {points : List String} (known : List String) {file : String}
    {progress : Progress} (chosen : file ∈ points)
    (first : file ∈ progress.fresh ∨ progress.openings = []) :
    (∃ final, traverse task file progress = (final, none) ∧
        Steps task points (progress, []) (final, []) ∧ Tried task points known file final) ∨
      ∃ final failure, traverse task file progress = (final, some failure) ∧
        SameRecord final progress := by
  rcases entered : enter task 0 file progress with ⟨after, failure | opened⟩
  · refine Or.inr ⟨after, failure, traverse_of_error entered, ?_⟩
    rcases enter_eq_error entered with ⟨-, rfl⟩ | ⟨-, -, rfl⟩ <;> exact ⟨rfl, rfl, rfl⟩
  · have effect := entered_of_enter entered
    obtain ⟨final, done, steps⟩ :=
      exists_steps_of_run task points effect.comparable after opened.toList
    refine Or.inl ⟨final, ?_, .head (.start chosen first effect) steps, .entered effect steps⟩
    rw [traverse_of_enter entered, done]

/-- A traversal from several files runs to an empty stack. If it fails, nothing
was recorded after the last stack that was empty; if not, every file was tried. -/
theorem traverseAll_cases (task : Task) {points known : List String} (files : List String)
    (chosen : ∀ file ∈ files, file ∈ points) (listed : ∀ file ∈ files, file ∈ known)
    (progress : Progress) :
    ∃ final, Steps task points (progress, []) (final, []) ∧
      SameRecord (traverseAll task progress files).1 final ∧
        ((traverseAll task progress files).2 = none →
          ∀ file ∈ files, Tried task points known file final) := by
  induction files generalizing progress with
  | nil => exact ⟨progress, .refl, ⟨rfl, rfl, rfl⟩, fun _ => List.forall_mem_nil _⟩
  | cons file files ih =>
      have others := ih (fun other member => chosen other (List.mem_cons_of_mem file member))
        fun other member => listed other (List.mem_cons_of_mem file member)
      rw [traverseAll]
      by_cases fresh : file ∈ progress.fresh
      · rw [if_pos fresh]
        rcases traverse_cases task known (chosen file List.mem_cons_self) (Or.inl fresh) with
          ⟨middle, done, steps, tried⟩ | ⟨middle, failure, failed, same⟩
        · rw [done]
          obtain ⟨final, rest, same, all⟩ := others middle
          refine ⟨final, steps.trans rest, same, fun succeeded other member => ?_⟩
          rcases List.mem_cons.mp member with rfl | later
          · exact tried.trans rest
          · exact all succeeded other later
        · rw [failed]
          exact ⟨progress, .refl, same, nofun⟩
      · rw [if_neg fresh]
        obtain ⟨final, rest, same, all⟩ := others progress
        refine ⟨final, rest, same, fun succeeded other member => ?_⟩
        rcases List.mem_cons.mp member with rfl | later
        · exact .stale (listed other List.mem_cons_self) fresh rest
        · exact all succeeded other later

/-- What a traversal with the given starting points does between a first and a
last stage that the caller may see only part of. -/
structure Spans (task : Task) (points : List String) (before : Progress)
    (result : Progress × Option Failure) (first final : Progress) : Prop where
  begins : SameRecord first before
  fresh : first.fresh = before.fresh
  steps : Steps task points (first, []) (final, [])
  ends : SameRecord result.1 final
  tried : result.2 = none → ∀ file ∈ points, Tried task points before.fresh file final

private theorem spans_traverseAll (task : Task) {files : List String} {progress : Progress}
    (listed : ∀ file ∈ files, file ∈ progress.fresh) (notice : Notice) :
    ∃ first final, Spans task files progress
      (traverseAll task (progress.note notice) files) first final := by
  obtain ⟨final, steps, same, tried⟩ :=
    traverseAll_cases task files (fun _ member => member) listed (progress.note notice)
  exact ⟨progress.note notice, final, sameRecord_note _ _, rfl, steps, same, tried⟩

private theorem spans_refl (task : Task) (progress : Progress) (failure : Option Failure) :
    Spans task [] progress (progress, failure) progress progress :=
  ⟨⟨rfl, rfl, rfl⟩, rfl, .refl, ⟨rfl, rfl, rfl⟩, fun _ => List.forall_mem_nil _⟩

private theorem spans_note (task : Task) (progress : Progress) (notice : Notice) :
    Spans task [] progress (progress.note notice, none) progress progress :=
  ⟨⟨rfl, rfl, rfl⟩, rfl, .refl, sameRecord_note _ _, fun _ => List.forall_mem_nil _⟩

private theorem spans_traverse (task : Task) (file : String) {progress : Progress}
    (unopened : progress.openings = []) (notice : Notice) :
    ∃ first final, Spans task [file] progress
      (traverse task file (progress.note notice)) first final := by
  have noted := sameRecord_note progress notice
  have first : file ∈ (progress.note notice).fresh ∨ (progress.note notice).openings = [] :=
    Or.inr (noted.openings.trans unopened)
  rcases traverse_cases task progress.fresh (List.mem_singleton_self file) first with
    ⟨final, done, steps, tried⟩ | ⟨final, failure, failed, same⟩
  · rw [done]
    refine ⟨_, final, noted, rfl, steps, ⟨rfl, rfl, rfl⟩, fun _ other member => ?_⟩
    rw [List.mem_singleton.mp member]
    exact tried
  · rw [failed]
    exact ⟨_, _, noted, rfl, .refl, same, nofun⟩

/-- What comes of a start file: it cannot be probed, it is no regular file below the
root and is only reported, or it is traversed from. -/
theorem fromStart_cases (task : Task) (start : String) (progress : Progress) :
    (∃ failure, startPoint? task.project start = .error failure ∧
      fromStart task start progress = (progress, some failure)) ∨
    (∃ notice, startPoint? task.project start = .ok none ∧
      fromStart task start progress = (progress.note notice, none)) ∨
    ∃ point notice, startPoint? task.project start = .ok (some point) ∧
      fromStart task start progress = traverse task point (progress.note notice) := by
  unfold startPoint? fromStart
  dsimp only
  cases task.project.tree.isFile? ((task.project.root.join start).normalize).toString with
  | error failure => exact Or.inl ⟨failure, rfl, rfl⟩
  | ok regular =>
      cases ((task.project.root.join start).normalize).relativeTo? task.project.root with
      | none => cases regular <;> exact Or.inr (Or.inl ⟨_, rfl, rfl⟩)
      | some parts =>
          cases regular with
          | false => exact Or.inr (Or.inl ⟨_, rfl, rfl⟩)
          | true => exact Or.inr (Or.inr ⟨_, _, rfl, rfl⟩)

/-- A start file that is found is announced and traversed. -/
theorem fromStart_of_startPoint? {task : Task} {start point : String}
    (found : startPoint? task.project start = .ok (some point)) (progress : Progress) :
    fromStart task start progress = traverse task point (progress.note (.startingFrom point)) := by
  unfold startPoint? at found
  unfold fromStart
  dsimp only at found ⊢
  split at found
  · cases found
  · next parts regular below =>
      cases found
      rw [regular, below]
  · cases found

/-- A start file that is not found leaves the graph as it was. -/
theorem graph_fromStart_of_unfound {task : Task} {start : String}
    (unfound : ∀ point, startPoint? task.project start ≠ .ok (some point)) (progress : Progress) :
    (fromStart task start progress).1.graph = progress.graph := by
  rcases fromStart_cases task start progress with ⟨failure, -, whole⟩ | ⟨notice, -, whole⟩ |
    ⟨point, -, found, -⟩
  · rw [whole]
  · rw [whole, Progress.graph_note]
  · exact absurd found (unfound point)

/-- A traversal starts from every discovered file, or from a start file. -/
theorem traversal_cases (task : Task) (start : Option String) (files : List String)
    (progress : Progress) :
    (startingPoints task.project start files = .ok files ∧
      traversal task start files progress = traverseAll task (progress.note .processingAll) files) ∨
    ∃ name, startingPoints task.project start files =
        (startPoint? task.project name).map Option.toList ∧
      traversal task start files progress = fromStart task name progress := by
  cases start with
  | none => exact Or.inl ⟨rfl, rfl⟩
  | some name =>
      by_cases unnamed : name = ""
      · exact Or.inl ⟨if_pos unnamed, if_pos unnamed⟩
      · exact Or.inr ⟨name, if_neg unnamed, if_neg unnamed⟩

/-- Without a start file all discovered files are gone through. -/
theorem traversal_of_unnamed {start : Option String} (unnamed : start.getD "" = "") (task : Task)
    (files : List String) (progress : Progress) :
    traversal task start files progress =
      traverseAll task (progress.note .processingAll) files := by
  cases start with
  | none => rfl
  | some start => exact if_pos unnamed

/-- With a start file the traversal starts there. -/
theorem traversal_of_named {start : Option String} (named : start.getD "" ≠ "") (task : Task)
    (files : List String) (progress : Progress) :
    traversal task start files progress = fromStart task (start.getD "") progress := by
  cases start with
  | none => exact absurd rfl named
  | some start => exact if_neg named

private theorem spans_fromStart (task : Task) (start : String) {progress : Progress}
    (unopened : progress.openings = []) :
    ∃ first final, Spans task
      (((startPoint? task.project start).map Option.toList).toOption.getD []) progress
      (fromStart task start progress) first final := by
  rcases fromStart_cases task start progress with ⟨failure, unknown, whole⟩ |
    ⟨notice, missing, whole⟩ | ⟨point, notice, found, whole⟩
  · rw [unknown, whole]
    exact ⟨_, _, spans_refl task progress (some failure)⟩
  · rw [missing, whole]
    exact ⟨_, _, spans_note task progress notice⟩
  · rw [found, whole]
    exact spans_traverse task point unopened notice

/-- The traversal of a build runs by steps from its starting points. -/
theorem spans_traversal (task : Task) (start : Option String) {files : List String}
    {progress : Progress} (listed : ∀ file ∈ files, file ∈ progress.fresh)
    (unopened : progress.openings = []) :
    ∃ first final, Spans task ((startingPoints task.project start files).toOption.getD []) progress
      (traversal task start files progress) first final := by
  rcases traversal_cases task start files progress with ⟨points, whole⟩ | ⟨name, points, whole⟩
  · rw [points, whole]
    exact spans_traverseAll task listed .processingAll
  · rw [points, whole]
    exact spans_fromStart task name unopened

/-- The files that a build discovers, none if discovery fails. -/
def discovered (project : Project) (request : BuildRequest) : List String :=
  (project.tree.discover request.filter project.root).2.toOption.getD []

/-- What discovery lists is what the build knows. -/
theorem discovered_of_ok {project : Project} {request : BuildRequest} {files : List String}
    (discovery : (project.tree.discover request.filter project.root).2 = .ok files) :
    discovered project request = files := by
  rw [discovered, discovery]
  rfl

/-- A failed discovery leaves the build with no file. -/
theorem discovered_of_error {project : Project} {request : BuildRequest} {failure : Failure}
    (discovery : (project.tree.discover request.filter project.root).2 = .error failure) :
    discovered project request = [] := by
  rw [discovered, discovery]
  rfl

/-- A file is known to the build only from a discovery that did not fail. -/
theorem exists_discover_of_mem {project : Project} {request : BuildRequest} {file : String}
    (listed : file ∈ discovered project request) :
    ∃ files, (project.tree.discover request.filter project.root).2 = .ok files ∧ file ∈ files := by
  cases outcome : (project.tree.discover request.filter project.root).2 with
  | error failure =>
      rw [discovered_of_error outcome] at listed
      cases listed
  | ok files =>
      rw [discovered_of_ok outcome] at listed
      exact ⟨files, rfl, listed⟩

/-- The files that a build starts from, none if the start file cannot be probed. -/
def startsFrom (project : Project) (request : BuildRequest) : List String :=
  (startingPoints project request.startFile (discovered project request)).toOption.getD []

/-- The traversal of a build runs by steps from the files that the build starts from. -/
theorem spans_startsFrom {project : Project} {request : BuildRequest} {files : List String}
    {progress : Progress} (all : discovered project request = files)
    (fresh : progress.fresh = files) (unopened : progress.openings = []) :
    ∃ first final, Spans ⟨project, request.limit⟩ (startsFrom project request) progress
      (traversal ⟨project, request.limit⟩ request.startFile files progress) first final := by
  have listed : ∀ file ∈ files, file ∈ progress.fresh := fun _ member => fresh.symm ▸ member
  rw [startsFrom, all]
  exact spans_traversal ⟨project, request.limit⟩ request.startFile listed unopened

/-- A file that a build starts from was discovered, or is the start file. -/
theorem mem_startsFrom_cases {project : Project} {request : BuildRequest} {file : String}
    (chosen : file ∈ startsFrom project request) :
    file ∈ discovered project request ∨
      ∃ start, request.startFile = some start ∧ startPoint? project start = .ok (some file) := by
  unfold startsFrom startingPoints at chosen
  split at chosen
  · next start named =>
      split at chosen
      · exact Or.inl chosen
      · rcases found : startPoint? project start with failure | _ | point
        · rw [found] at chosen
          cases chosen
        · rw [found] at chosen
          cases chosen
        · rw [found] at chosen
          cases List.mem_singleton.mp chosen
          exact Or.inr ⟨start, named, found⟩
  · exact Or.inl chosen

/-- The changes that a build asked of its graph, the earliest first. -/
def operations (build : Build) : List Operation :=
  build.events.filterMap fun
    | .operation operation => some operation
    | _ => none

/-- The progress of a build into the empty store when its files are discovered. -/
def opening (project : Project) (request : BuildRequest) (found : List Notice)
    (files : List String) : Progress :=
  (Progress.mk Graph.empty files []).noteAll (openingNotices project request ++ found)

/-- What a build leaves behind when its traversal has ended. -/
def ended : Progress × Option Failure → Build
  | (progress, some failure) => ⟨⟨progress.graph, false⟩, progress.events, some failure⟩
  | (progress, none) =>
      ⟨⟨progress.graph, true⟩, (progress.note (closingNotice progress.graph)).events, none⟩

private theorem graph_ended (result : Progress × Option Failure) :
    (ended result).store.graph = result.1.graph := by
  rcases result with ⟨progress, _ | failure⟩ <;> rfl

/-- The result of a build records the operations of its last progress. -/
theorem operations_ended (result : Progress × Option Failure) :
    (ended result).operations = result.1.operations := by
  rcases result with ⟨progress, _ | failure⟩
  · exact Progress.operations_note progress _
  · rfl

/-- The result of a build reports the failure of its traversal. -/
theorem failure_ended (result : Progress × Option Failure) :
    (ended result).failure = result.2 := by
  rcases result with ⟨progress, _ | failure⟩ <;> rfl

/-- A build on a store still open is its traversal, after the opening notices. -/
theorem build_eq_ended_of_unfrozen {project : Project} {request : BuildRequest} {store : Store}
    {found : List Notice} {files : List String} (unfrozen : store.frozen = false)
    (discovery : project.tree.discover request.filter project.root = (found, .ok files)) :
    build project request store =
      ended (traversal ⟨project, request.limit⟩ request.startFile files
        ((Progress.mk store.graph files []).noteAll
          (openingNotices project request ++ found))) := by
  rcases done : traversal ⟨project, request.limit⟩ request.startFile files
    ((Progress.mk store.graph files []).noteAll (openingNotices project request ++ found)) with
    ⟨progress, failure⟩
  simp only [build, unfrozen, discovery, Bool.false_eq_true, ↓reduceIte]
  rw [done]
  cases failure <;> rfl

/-- A build on the empty store is its traversal from the opening progress. -/
theorem build_eq_ended {project : Project} {request : BuildRequest} {found : List Notice}
    {files : List String}
    (discovery : project.tree.discover request.filter project.root = (found, .ok files)) :
    build project request Store.empty =
      ended (traversal ⟨project, request.limit⟩ request.startFile files
        (opening project request found files)) :=
  build_eq_ended_of_unfrozen rfl discovery

/-- A build whose files are discovered leaves what its traversal leaves. -/
theorem build_eq_traversal {project : Project} {request : BuildRequest} {found : List Notice}
    {files : List String}
    (discovery : project.tree.discover request.filter project.root = (found, .ok files)) :
    let built := build project request Store.empty
    let result := traversal ⟨project, request.limit⟩ request.startFile files
      (opening project request found files)
    built.store.graph = result.1.graph ∧ built.operations = result.1.operations ∧
      built.failure = result.2 := by
  intro built result
  have whole : built = ended result := build_eq_ended discovery
  rw [whole]
  exact ⟨graph_ended result, operations_ended result, failure_ended result⟩

/-- A failed discovery ends the build with the store as it was. -/
theorem build_eq_stopped_of_unfrozen {project : Project} {request : BuildRequest} {store : Store}
    {found : List Notice} {failure : Failure} (unfrozen : store.frozen = false)
    (discovery : project.tree.discover request.filter project.root = (found, .error failure)) :
    build project request store =
      ⟨store, (openingNotices project request ++ found).map .notice, some failure⟩ := by
  simp only [build, unfrozen, discovery, Bool.false_eq_true, ↓reduceIte]

/-- A failed discovery ends a build on the empty store with nothing stored. -/
theorem build_eq_stopped {project : Project} {request : BuildRequest} {found : List Notice}
    {failure : Failure}
    (discovery : project.tree.discover request.filter project.root = (found, .error failure)) :
    build project request Store.empty =
      ⟨Store.empty, (openingNotices project request ++ found).map .notice, some failure⟩ :=
  build_eq_stopped_of_unfrozen rfl discovery

/-- A build whose files cannot be discovered records nothing. -/
theorem build_eq_of_error {project : Project} {request : BuildRequest} {found : List Notice}
    {failure : Failure}
    (discovery : project.tree.discover request.filter project.root = (found, .error failure)) :
    let built := build project request Store.empty
    built.store.graph = Graph.empty ∧ built.operations = [] ∧ built.failure = some failure := by
  intro built
  have whole : built = _ := build_eq_stopped discovery
  rw [whole]
  refine ⟨rfl, ?_, rfl⟩
  simp [operations, List.filterMap_map]

/-- How a build into the empty store unfolds: by steps from an empty graph, with
all discovered files fresh, to an empty stack and the graph that is built. -/
structure Unfolds (project : Project) (request : BuildRequest) (first final : Progress) :
    Prop where
  graph : first.graph = Graph.empty
  fresh : first.fresh = discovered project request
  operations : first.operations = []
  openings : first.openings = []
  steps : Steps ⟨project, request.limit⟩ (startsFrom project request) (first, []) (final, [])
  store : (build project request Store.empty).store.graph = final.graph
  changes : (build project request Store.empty).operations = final.operations
  tried : (build project request Store.empty).failure = none →
    ∀ file ∈ startsFrom project request,
      Tried ⟨project, request.limit⟩ (startsFrom project request) (discovered project request) file
        final

/-- Every build has a first and a last progress between which it unfolds. -/
theorem exists_unfolds (project : Project) (request : BuildRequest) :
    ∃ first final, Unfolds project request first final := by
  rcases discovery : project.tree.discover request.filter project.root with
    ⟨found, failure | files⟩
  · obtain ⟨graph, changes, failed⟩ := build_eq_of_error discovery
    have none := discovered_of_error (congrArg Prod.snd discovery)
    exact ⟨⟨Graph.empty, [], []⟩, ⟨Graph.empty, [], []⟩, rfl, none.symm, rfl, rfl, .refl, graph,
      changes, by simp only [failed, reduceCtorEq, false_implies]⟩
  · obtain ⟨graph, changes, failed⟩ := build_eq_traversal discovery
    have all := discovered_of_ok (congrArg Prod.snd discovery)
    have unopened : (opening project request found files).openings = [] :=
      Progress.openings_noteAll _ _
    have fresh : (opening project request found files).fresh = files :=
      Progress.fresh_noteAll _ _
    obtain ⟨first, final, spans⟩ := spans_startsFrom all fresh unopened
    exact ⟨first, final,
      { graph := spans.begins.graph.trans (Progress.graph_noteAll _ _)
        fresh := (spans.fresh.trans fresh).trans all.symm
        operations := spans.begins.operations.trans (Progress.operations_noteAll _ _)
        openings := spans.begins.openings.trans (Progress.openings_noteAll _ _)
        steps := spans.steps
        store := graph.trans spans.ends.graph
        changes := changes.trans spans.ends.operations
        tried := fun succeeded file member =>
          (fresh.trans all.symm) ▸ spans.tried (failed.symm.trans succeeded) file member }⟩

end Build

end ModuleAtlas
