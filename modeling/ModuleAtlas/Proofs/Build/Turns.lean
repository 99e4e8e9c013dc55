import Mathlib.Algebra.GroupWithZero.Nat
import Mathlib.Algebra.Order.BigOperators.Group.List
import Mathlib.Algebra.Order.Group.Nat
import Mathlib.Logic.Function.Iterate
import Mathlib.Tactic.Push
import ModuleAtlas.Proofs.Build.Steps

/-! # Expansions turn by turn

The expansion of a stack is a machine that takes one turn after another: it closes
the innermost frame, passes a reference, or enters the file that a reference leads
to. No turn changes what the expansion comes to
(`ModuleAtlas.Build.Stage.outcome_turn`). A traversal starts by entering a file on top
of the frames that are open; a file that was entered before leaves them as they are,
which is a stage as any other.

Turns are paid for in advance. A frame that is open pays for its references and for
its end, and a fresh file pays for all the turns that it will take when it is opened.
A file that is opened is no longer fresh, so what it paid passes to its frame and
every turn uses up one that is paid for (`ModuleAtlas.Build.Stage.expense_turn_le`).
Hence every expansion ends, from whatever progress and stack it starts and however
the files lead to each other (`ModuleAtlas.Build.Stage.iterate_turn`).
-/

namespace ModuleAtlas.Build

/-- Where the expansion of a stack stands: it goes on with the frames that are open,
or it has ended, possibly with a failure. -/
inductive Stage where
  | expanding (progress : Progress) (frames : List Frame)
  | ended (result : Progress × Option Failure)

namespace Stage

/-- The stage after a file is entered while some frames are open. -/
def entering (task : Task) (depth : Nat) (file : String) (progress : Progress)
    (frames : List Frame) : Stage :=
  match enter task depth file progress with
  | (next, .error failure) => .ended (next, some failure)
  | (next, .ok opened) => .expanding next (opened.toList ++ frames)

/-- One turn of an expansion. An expansion that has ended stays as it is. -/
def turn (task : Task) : Stage → Stage
  | .ended result => .ended result
  | .expanding progress [] => .ended (progress, none)
  | .expanding progress (⟨_, _, []⟩ :: frames) => .expanding progress frames
  | .expanding progress (⟨file, depth, reference :: references⟩ :: frames) =>
      match addReference task file reference progress with
      | (noted, none) => .expanding noted (⟨file, depth, references⟩ :: frames)
      | (noted, some target) =>
          if target ∈ noted.fresh then
            .entering task (depth + 1) target noted (⟨file, depth, references⟩ :: frames)
          else .expanding noted (⟨file, depth, references⟩ :: frames)

/-- What an expansion comes to. -/
def outcome (task : Task) : Stage → Progress × Option Failure
  | .expanding progress frames => run task progress frames
  | .ended result => result

end Stage

section Moves

variable {task : Task} {file reference target : String} {progress noted next : Progress}

private theorem Stage.entering_of_error {depth : Nat} {failure : Failure}
    (failed : enter task depth file progress = (next, .error failure)) (frames : List Frame) :
    Stage.entering task depth file progress frames = .ended (next, some failure) := by
  rw [entering, failed]

private theorem Stage.entering_of_ok {depth : Nat} {opened : Option Frame}
    (entered : enter task depth file progress = (next, .ok opened)) (frames : List Frame) :
    Stage.entering task depth file progress frames =
      .expanding next (opened.toList ++ frames) := by
  rw [entering, entered]

private theorem Stage.turn_close (task : Task) (progress : Progress) (file : String) (depth : Nat)
    (frames : List Frame) :
    (Stage.expanding progress (⟨file, depth, []⟩ :: frames)).turn task =
      .expanding progress frames := rfl

private theorem Stage.turn_pass {found : Option String}
    (added : addReference task file reference progress = (noted, found))
    (stale : ∀ next ∈ found, next ∉ noted.fresh) (depth : Nat) (references : List String)
    (frames : List Frame) :
    (Stage.expanding progress (⟨file, depth, reference :: references⟩ :: frames)).turn task =
      .expanding noted (⟨file, depth, references⟩ :: frames) := by
  unfold turn
  dsimp only
  rw [added]
  cases found with
  | none => rfl
  | some target => exact if_neg (stale target rfl)

private theorem Stage.turn_enter
    (added : addReference task file reference progress = (noted, some target))
    (fresh : target ∈ noted.fresh) (depth : Nat) (references : List String) (frames : List Frame) :
    (Stage.expanding progress (⟨file, depth, reference :: references⟩ :: frames)).turn task =
      .entering task (depth + 1) target noted (⟨file, depth, references⟩ :: frames) := by
  unfold turn
  dsimp only
  rw [added]
  exact if_pos fresh

end Moves

/-- A traversal from a file goes on from the stage in which the file is entered. -/
theorem Stage.outcome_entering (task : Task) (file : String) (progress : Progress) :
    (Stage.entering task 0 file progress []).outcome task = traverse task file progress := by
  rcases entered : enter task 0 file progress with ⟨next, failure | opened⟩
  · rw [entering_of_error entered, traverse_of_error entered, outcome]
  · rw [entering_of_ok entered, traverse_of_enter entered, outcome, List.append_nil]

/-- What holds of every stage if it holds wherever the next turn does nothing, finds no
frame, closes one, passes a reference, or enters the file that a reference leads to. -/
theorem Stage.turn_cases (task : Task) {motive : Stage → Prop}
    (ended : ∀ result, motive (.ended result))
    (empty : ∀ progress, motive (.expanding progress []))
    (close : ∀ progress file depth frames,
      motive (.expanding progress (⟨file, depth, []⟩ :: frames)))
    (pass : ∀ {progress noted file reference found} depth references frames,
      addReference task file reference progress = (noted, found) →
      (∀ next ∈ found, next ∉ noted.fresh) →
      motive (.expanding progress (⟨file, depth, reference :: references⟩ :: frames)))
    (enter : ∀ {progress noted file reference target} depth references frames,
      addReference task file reference progress = (noted, some target) → target ∈ noted.fresh →
      motive (.expanding progress (⟨file, depth, reference :: references⟩ :: frames)))
    (stage : Stage) : motive stage := by
  rcases stage with ⟨progress, _ | ⟨⟨file, depth, _ | ⟨reference, references⟩⟩, frames⟩⟩ | result
  · exact empty progress
  · exact close progress file depth frames
  · rcases added : addReference task file reference progress with ⟨noted, found⟩
    by_cases stale : ∀ next ∈ found, next ∉ noted.fresh
    · exact pass depth references frames added stale
    · push Not at stale
      obtain ⟨target, rfl, fresh⟩ := stale
      exact enter depth references frames added fresh
  · exact ended result

/-- A turn does not change what an expansion comes to. -/
theorem Stage.outcome_turn (task : Task) (stage : Stage) :
    (stage.turn task).outcome task = stage.outcome task := by
  induction stage using turn_cases task with
  | ended result => rfl
  | empty progress => exact (run_nil task progress).symm
  | close progress file depth frames => exact (run_close task progress file depth frames).symm
  | pass depth references frames added stale =>
      rw [turn_pass added stale, outcome, outcome, run_pass added stale]
  | @enter _ noted _ _ target depth references frames added fresh =>
      rw [turn_enter added fresh]
      rcases entered : Build.enter task (depth + 1) target noted with ⟨next, failure | opened⟩
      · rw [entering_of_error entered, outcome, outcome, run_fail added fresh entered]
      · rw [entering_of_ok entered, outcome, outcome, run_descend added fresh entered]

/-- The turns that a file takes when it is opened: one for each of its references, and
one to close its frame. -/
def outlay (task : Task) (file : String) : Nat :=
  match Reference.ofPath task.project.tree (task.project.fullPath file) with
  | .ok references => references.length + 1
  | .error _ => 0

private theorem outlay_of_ok {task : Task} {file : String} {references : List String}
    (read : Reference.ofPath task.project.tree (task.project.fullPath file) = .ok references) :
    outlay task file = references.length + 1 := by
  unfold outlay
  rw [read]

/-- The turns that are paid for: those of the files that are still fresh, those that are
left of the frames, and the last one, which finds that nothing is left. -/
def Stage.expense (task : Task) : Stage → Nat
  | .expanding progress frames => (progress.fresh.map (outlay task)).sum + workLeft frames + 1
  | .ended _ => 0

private theorem workLeft_append (frames others : List Frame) :
    workLeft (frames ++ others) = workLeft frames + workLeft others := by
  induction frames with
  | nil => simp only [List.nil_append, workLeft, zero_add]
  | cons frame frames ih =>
      rw [List.cons_append, workLeft, workLeft, ih]
      omega

/-- A file that is no longer fresh frees all the turns that it paid for. -/
theorem sum_outlay_filter_le (task : Task) {file : String} {fresh : List String}
    (member : file ∈ fresh) :
    ((fresh.filter (· ≠ file)).map (outlay task)).sum + outlay task file ≤
      (fresh.map (outlay task)).sum := by
  have parted := ((List.filter_append_perm (· ≠ file) fresh).map (outlay task)).sum_eq
  have freed : outlay task file ≤
      ((fresh.filter fun other => !decide (other ≠ file)).map (outlay task)).sum :=
    List.le_sum_of_mem (List.mem_map_of_mem (List.mem_filter.mpr ⟨member, by simp⟩))
  rw [List.map_append, List.sum_append] at parted
  omega

private theorem sum_outlay_le_of_sublist (task : Task) {some all : List String}
    (fewer : List.Sublist some all) : (some.map (outlay task)).sum ≤ (all.map (outlay task)).sum :=
  (fewer.map _).sum_le_sum fun _ _ => Nat.zero_le _

private theorem Entered.fresh_sublist {task : Task} {depth : Nat} {file : String}
    {before after : Progress} {opened : Option Frame}
    (entered : Entered task depth file before after opened) :
    List.Sublist after.fresh before.fresh := by
  cases entered with
  | beyond _ _ fresh => rw [fresh]
  | irregular _ _ _ fresh => rw [fresh]; exact List.filter_sublist
  | unreadable _ _ _ _ fresh => rw [fresh]; exact List.filter_sublist
  | opened _ _ _ _ fresh => rw [fresh]; exact List.filter_sublist

/-- A file that is entered leaves no more to do than it pays for. -/
theorem Entered.workLeft_le {task : Task} {depth : Nat} {file : String} {before after : Progress}
    {opened : Option Frame} (entered : Entered task depth file before after opened) :
    workLeft opened.toList ≤ outlay task file := by
  cases entered with
  | beyond => exact Nat.zero_le _
  | irregular => exact Nat.zero_le _
  | unreadable => exact Nat.zero_le _
  | opened _ _ read =>
      rw [outlay_of_ok read]
      exact Nat.le_refl _

/-- What the frame of a file is given, the file paid for while it was fresh. -/
theorem Entered.expense_le {task : Task} {depth : Nat} {file : String} {before after : Progress}
    {opened : Option Frame} (entered : Entered task depth file before after opened)
    (fresh : file ∈ before.fresh) :
    (after.fresh.map (outlay task)).sum + workLeft opened.toList ≤
      (before.fresh.map (outlay task)).sum := by
  cases opened with
  | none => exact sum_outlay_le_of_sublist task entered.fresh_sublist
  | some frame =>
      have work := entered.workLeft_le
      have freed := sum_outlay_filter_le task fresh
      cases entered with
      | opened _ _ _ _ left =>
          rw [left]
          omega

private theorem Stage.expense_entering_le (task : Task) (depth : Nat) {file : String}
    {progress : Progress} (fresh : file ∈ progress.fresh) (frames : List Frame) :
    (Stage.entering task depth file progress frames).expense task ≤
      (Stage.expanding progress frames).expense task := by
  rcases entered : enter task depth file progress with ⟨next, failure | opened⟩
  · rw [entering_of_error entered]
    exact Nat.zero_le _
  · have paid := (entered_of_enter entered).expense_le fresh
    rw [entering_of_ok entered, expense, expense, workLeft_append]
    omega

/-- A traversal may start from a file that was never fresh, which pays for itself. -/
theorem Stage.expense_starting_le (task : Task) (depth : Nat) (file : String)
    (progress : Progress) (frames : List Frame) :
    (Stage.entering task depth file progress frames).expense task ≤
      outlay task file + (Stage.expanding progress frames).expense task := by
  rcases entered : enter task depth file progress with ⟨next, failure | opened⟩
  · rw [entering_of_error entered]
    exact Nat.zero_le _
  · have effect := entered_of_enter entered
    have work := effect.workLeft_le
    have fewer := sum_outlay_le_of_sublist task effect.fresh_sublist
    rw [entering_of_ok entered, expense, expense, workLeft_append]
    omega

/-- A reference that was looked at is a turn that is used up. -/
theorem Stage.expense_noted_le {task : Task} {file reference : String} {progress noted : Progress}
    {found : Option String} (added : addReference task file reference progress = (noted, found))
    (depth : Nat) (references : List String) (frames : List Frame) :
    (Stage.expanding noted (⟨file, depth, references⟩ :: frames)).expense task ≤
      (Stage.expanding progress (⟨file, depth, reference :: references⟩ :: frames)).expense task
        - 1 := by
  simp only [expense, workLeft, (recorded_addReference added).fresh, List.length_cons]
  omega

/-- Every turn uses up one that is paid for. -/
theorem Stage.expense_turn_le (task : Task) (stage : Stage) :
    (stage.turn task).expense task ≤ stage.expense task - 1 := by
  induction stage using turn_cases task with
  | ended result => exact Nat.zero_le _
  | empty progress => exact Nat.zero_le _
  | close progress file depth frames =>
      simp only [turn_close, expense, workLeft, List.length_nil]
      omega
  | pass depth references frames added stale =>
      rw [turn_pass added stale]
      exact expense_noted_le added depth references frames
  | enter depth references frames added fresh =>
      rw [turn_enter added fresh]
      exact (expense_entering_le task (depth + 1) fresh _).trans
        (expense_noted_le added depth references frames)

/-- An expansion has ended, and stays so, after as many turns as are paid for. -/
theorem Stage.iterate_turn (task : Task) {stage : Stage} {count : Nat}
    (enough : stage.expense task ≤ count) :
    (Stage.turn task)^[count] stage = .ended (stage.outcome task) := by
  induction count generalizing stage with
  | zero =>
      cases stage with
      | expanding progress frames => exact absurd enough (Nat.not_succ_le_zero _)
      | ended result => rfl
  | succ count ih =>
      have used := expense_turn_le task stage
      rw [Function.iterate_succ_apply, ih (by omega), outcome_turn]

end ModuleAtlas.Build
