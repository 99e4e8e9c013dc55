import ModuleAtlas.Build.Verdict
import ModuleAtlas.DepthLimit
import ModuleAtlas.Graph.Store
import ModuleAtlas.Reference.File

/-! # Traversal of a project

Files are expanded depth first. A stack holds one frame for every file that is
being expanded, with the references still to be looked at, so files are met in
the order in which a recursive descent would meet them. Every discovered file is
fresh until it is entered, which happens at most once.
-/

namespace ModuleAtlas.Build

/-- One thing that happened during a build: a file was opened, the graph was
asked to change, or something was reported. -/
inductive Event where
  | opened (file : String)
  | operation (operation : Operation)
  | notice (notice : Notice)
  deriving DecidableEq, Repr

/-- How far a build has come: the graph so far, the discovered files not entered
yet, and what happened, the latest first. -/
structure Progress where
  graph : Graph
  fresh : List String
  journal : List Event

namespace Progress

/-- Progress with one more event. -/
def record (progress : Progress) (event : Event) : Progress :=
  { progress with journal := event :: progress.journal }

/-- Progress with one more notice. -/
def note (progress : Progress) (notice : Notice) : Progress := progress.record (.notice notice)

/-- Progress with several more notices. -/
def noteAll (progress : Progress) (notices : List Notice) : Progress := notices.foldl note progress

/-- Progress with a file no longer fresh. -/
def enter (progress : Progress) (file : String) : Progress :=
  { progress with fresh := progress.fresh.filter (· ≠ file) }

/-- Progress with the graph changed by an operation. -/
def perform (progress : Progress) (operation : Operation) : Progress :=
  { progress.record (.operation operation) with graph := progress.graph.apply operation }

/-- What happened, the earliest first. -/
def events (progress : Progress) : List Event := progress.journal.reverse

/-- The notices, the earliest first. -/
def notices (progress : Progress) : List Notice :=
  progress.events.filterMap fun
    | .notice notice => some notice
    | _ => none

/-- The operations asked of the graph, the earliest first. -/
def operations (progress : Progress) : List Operation :=
  progress.events.filterMap fun
    | .operation operation => some operation
    | _ => none

/-- The files that were opened, the earliest first. -/
def openings (progress : Progress) : List String :=
  progress.events.filterMap fun
    | .opened file => some file
    | _ => none

/-- A notice spends no file. -/
@[simp]
theorem fresh_note (progress : Progress) (notice : Notice) :
    (progress.note notice).fresh = progress.fresh := rfl

/-- No run of notices spends a file. -/
@[simp]
theorem fresh_noteAll (progress : Progress) (notices : List Notice) :
    (progress.noteAll notices).fresh = progress.fresh := by
  induction notices generalizing progress with
  | nil => rfl
  | cons notice notices ih => exact ih (progress.note notice)

/-- An operation on the graph spends no file. -/
@[simp]
theorem fresh_perform (progress : Progress) (operation : Operation) :
    (progress.perform operation).fresh = progress.fresh := rfl

end Progress

/-- A file that is being expanded: its depth and the references still to be
looked at. -/
structure Frame where
  file : String
  depth : Nat
  references : List String
  deriving DecidableEq, Repr

/-- What a build works on: the project and how far from a start it may go. -/
structure Task where
  project : Project
  limit : DepthLimit

/-- Starts to expand a file unless it lies beyond the limit, is no regular file
or cannot be read. -/
def enter (task : Task) (depth : Nat) (file : String) (progress : Progress) :
    Progress × Except Failure (Option Frame) :=
  match task.limit.isExceededBy depth with
  | .error failure => (progress, .error failure)
  | .ok true => (progress.note (.beyondLimit file depth), .ok none)
  | .ok false =>
      let entered := progress.enter file
      let path := task.project.fullPath file
      match task.project.tree.isFile? path with
      | .error failure => (entered, .error failure)
      | .ok false => (entered, .ok none)
      | .ok true =>
          let opened := entered.record (.opened file)
          match Reference.ofPath task.project.tree path with
          | .error failure => (opened.note (.unreadableFile file failure), .ok none)
          | .ok references =>
              (((opened.note (.importsFound references.length path)).perform (.addFile file)).note
                (.processing references.length file depth), .ok (some ⟨file, depth, references⟩))

/-- Records what becomes of a reference, and answers its target if that is a new
internal dependency. -/
def addReference (task : Task) (file reference : String) (progress : Progress) :
    Progress × Option String :=
  let (notices, verdict) := task.project.verdict file reference
  let noted := progress.noteAll notices
  match verdict with
  | .dropped => (noted, none)
  | .external id => (noted.perform (.addDependency file id true), none)
  | .internal target =>
      let performed := noted.perform (.addDependency file target false)
      if noted.graph.hasEdge file target then
        (performed.note (.duplicateDependency target), none)
      else (performed, some target)

/-- How much is left to look at on a stack of frames. -/
def workLeft : List Frame → Nat
  | [] => 0
  | frame :: frames => frame.references.length + 1 + workLeft frames

private theorem fresh_addReference (task : Task) (file reference : String) (progress : Progress) :
    (addReference task file reference progress).1.fresh = progress.fresh := by
  simp only [addReference]
  split
  · simp
  · simp
  · split <;> simp

private theorem length_fresh_enter_le (task : Task) (depth : Nat) (file : String)
    (progress : Progress) :
    (enter task depth file progress).1.fresh.length ≤ progress.fresh.length := by
  have entered : (progress.enter file).fresh.length ≤ progress.fresh.length :=
    List.length_filter_le _ _
  simp only [enter]
  split
  · exact Nat.le_refl _
  · exact Nat.le_refl _
  · split
    · exact entered
    · exact entered
    · split <;> exact entered

private theorem length_fresh_enter_lt {task : Task} {depth : Nat} {file : String}
    {progress next : Progress} {frame : Frame} (member : file ∈ progress.fresh)
    (opened : enter task depth file progress = (next, .ok (some frame))) :
    next.fresh.length < progress.fresh.length := by
  have entered : (progress.enter file).fresh.length < progress.fresh.length :=
    List.length_filter_lt_length_iff_exists.mpr ⟨file, member, by simp⟩
  simp only [enter] at opened
  split at opened
  · simp at opened
  · simp at opened
  · split at opened
    · simp at opened
    · simp at opened
    · split at opened
      · simp at opened
      · simp only [Prod.mk.injEq] at opened
        rw [← opened.1]
        exact entered

/-- Expands the frames of a stack, innermost first, until all are done or the
build fails. -/
def run (task : Task) (progress : Progress) : List Frame → Progress × Option Failure
  | [] => (progress, none)
  | ⟨_, _, []⟩ :: frames => run task progress frames
  | ⟨file, depth, reference :: references⟩ :: frames =>
      match _added : addReference task file reference progress with
      | (noted, none) => run task noted (⟨file, depth, references⟩ :: frames)
      | (noted, some target) =>
          if _member : target ∈ noted.fresh then
            match _entered : enter task (depth + 1) target noted with
            | (next, .error failure) => (next, some failure)
            | (next, .ok none) => run task next (⟨file, depth, references⟩ :: frames)
            | (next, .ok (some frame)) =>
                run task next (frame :: ⟨file, depth, references⟩ :: frames)
          else run task noted (⟨file, depth, references⟩ :: frames)
termination_by frames => (progress.fresh.length, workLeft frames)
decreasing_by
  · exact Prod.Lex.right _ (by simp [workLeft])
  · have kept : noted.fresh = progress.fresh := by
      rw [← fresh_addReference task file reference progress, _added]
    rw [kept]
    exact Prod.Lex.right _ (by simp [workLeft])
  · have kept : noted.fresh = progress.fresh := by
      rw [← fresh_addReference task file reference progress, _added]
    have less : next.fresh.length ≤ progress.fresh.length := by
      have := length_fresh_enter_le task (depth + 1) target noted
      rw [_entered, kept] at this
      exact this
    rcases Nat.lt_or_eq_of_le less with lt | eq
    · exact Prod.Lex.left _ _ lt
    · rw [eq]
      exact Prod.Lex.right _ (by simp [workLeft])
  · have kept : noted.fresh = progress.fresh := by
      rw [← fresh_addReference task file reference progress, _added]
    rw [← kept]
    exact Prod.Lex.left _ _ (length_fresh_enter_lt _member _entered)
  · have kept : noted.fresh = progress.fresh := by
      rw [← fresh_addReference task file reference progress, _added]
    rw [kept]
    exact Prod.Lex.right _ (by simp [workLeft])

/-- Expands a file and everything that it leads to. -/
def traverse (task : Task) (file : String) (progress : Progress) : Progress × Option Failure :=
  match enter task 0 file progress with
  | (next, .error failure) => (next, some failure)
  | (next, .ok none) => (next, none)
  | (next, .ok (some frame)) => run task next [frame]

/-- Expands every file of a list that is still fresh when its turn comes. -/
def traverseAll (task : Task) (progress : Progress) : List String → Progress × Option Failure
  | [] => (progress, none)
  | file :: files =>
      if file ∈ progress.fresh then
        match traverse task file progress with
        | (next, some failure) => (next, some failure)
        | (next, none) => traverseAll task next files
      else traverseAll task progress files

end ModuleAtlas.Build
