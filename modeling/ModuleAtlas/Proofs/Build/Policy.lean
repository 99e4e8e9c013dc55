import ModuleAtlas.Proofs.Build.Dependencies

/-! # What the policy on external references decides

A lenient policy records some references that a strict one drops, each as an external
dependency under its own spelling, and judges all others alike
(`ModuleAtlas.Project.dependency?_under_cases`). Names of files and spellings of references
are strings of one kind, and of two dependencies with one target the first is kept: a
reference that is spelled like the name of a file takes the place of the internal
dependency on that file if it comes first (`ModuleAtlas.Project.Hides`). As long as no
scanned file has such a reference, the traversals under the two policies go in step
(`ModuleAtlas.Build.alike_run`), and this is exactly when the policy decides about external
edges only (`ModuleAtlas.Build.policy_decides_external_iff`).
-/

namespace ModuleAtlas

namespace Project

/-- The project with its references recorded under a policy. -/
def under (project : Project) (policy : ExternalPolicy) : Project := { project with policy }

variable {project : Project} {file reference name : String} {front references : List String}

/-- A reference that a lenient policy records and a strict one drops. -/
def LenientOnly (project : Project) (file reference : String) : Prop :=
  (project.under .strict).dependency? file reference = none ∧
    (project.under .lenient).dependency? file reference = some (reference, true)

/-- A reference stands for the same dependency under both policies, or only a lenient
one records it. -/
theorem dependency?_under_cases (project : Project) (file reference : String) :
    (project.under .lenient).dependency? file reference =
        (project.under .strict).dependency? file reference ∨
      project.LenientOnly file reference := by
  unfold LenientOnly dependency?
  dsimp only [under, fullPath]
  split
  · exact Or.inr ⟨rfl, rfl⟩
  · split
    · exact Or.inl rfl
    · exact Or.inl rfl
    · exact Or.inl rfl
    · cases Text.beginsWith reference "." with
      | true => exact Or.inl rfl
      | false => exact Or.inr ⟨rfl, rfl⟩

private theorem mem_targets_lenient
    (listed : name ∈ ((project.under .strict).entries file references).map Prod.fst) :
    name ∈ ((project.under .lenient).entries file references).map Prod.fst := by
  obtain ⟨reference, member, isExternal, found⟩ := mem_targets_entries.mp listed
  refine mem_targets_entries.mpr ⟨reference, member, isExternal, ?_⟩
  rcases project.dependency?_under_cases file reference with same | ⟨dropped, -⟩
  · exact same.trans found
  · cases dropped.symm.trans found

/-- A target that only a lenient policy lists is the spelling of a reference that only
such a policy records. -/
theorem lenientOnly_of_mem_targets
    (listed : name ∈ ((project.under .lenient).entries file references).map Prod.fst)
    (unlisted : name ∉ ((project.under .strict).entries file references).map Prod.fst) :
    name ∈ references ∧ project.LenientOnly file name ∧
      (name, true) ∈ (project.under .lenient).entries file references := by
  obtain ⟨⟨_, isExternal⟩, entry, rfl⟩ := List.mem_map.mp listed
  obtain ⟨reference, member, found⟩ := List.mem_filterMap.mp (mem_of_mem_firstPerTarget entry)
  rcases project.dependency?_under_cases file reference with same | loose
  · exact absurd
      (mem_targets_entries.mpr ⟨reference, member, isExternal, same.symm.trans found⟩) unlisted
  · cases loose.2.symm.trans found
    exact ⟨member, loose, entry⟩

/-- A reference that only a lenient policy records hides an internal dependency of a
file: it is spelled like the target, and a strict policy has not listed the target
before it. -/
structure Hides (project : Project) (file : String) (references : List String) (name : String) :
    Prop where
  internal : (name, false) ∈ (project.under .strict).entries file references
  loose : project.LenientOnly file name
  ahead : ∃ front back, references = front ++ name :: back ∧
    name ∉ ((project.under .strict).entries file front).map Prod.fst

private theorem Hides.append (hides : project.Hides file references name) (more : List String) :
    project.Hides file (references ++ more) name := by
  obtain ⟨front, back, rfl, unlisted⟩ := hides.ahead
  exact ⟨entries_subset_append _ _ _ _ hides.internal, hides.loose, front, back ++ more, by simp,
    unlisted⟩

/-- The hidden dependencies are those that a strict policy lists as internal and a lenient
one as external. -/
theorem hides_iff :
    project.Hides file references name ↔
      (name, false) ∈ (project.under .strict).entries file references ∧
        (name, true) ∈ (project.under .lenient).entries file references := by
  constructor
  · intro hides
    refine ⟨hides.internal, ?_⟩
    obtain ⟨front, back, rfl, unlisted⟩ := hides.ahead
    have rest : front ++ name :: back = front ++ [name] ++ back := 
      List.append_cons front name back
    rw [rest]
    apply entries_subset_append
    refine (lenientOnly_of_mem_targets ?_ ?_).2.2
    · exact mem_targets_entries.mpr ⟨name, List.mem_concat_self, true, hides.loose.2⟩
    · rwa [entries_concat_of_none hides.loose.1]
  · rintro ⟨internal, external⟩
    obtain ⟨front, reference, back, rfl, found, unlisted⟩ := mem_entries_iff.mp external
    have new : name ∉ ((project.under .strict).entries file front).map Prod.fst :=
      fun listed => unlisted (mem_targets_lenient listed)
    rcases project.dependency?_under_cases file reference with same | loose
    · -- A strict policy would list the target as external too.
      have listed : (name, true) ∈
          (project.under .strict).entries file (front ++ reference :: back) :=
        mem_entries_iff.mpr ⟨front, reference, back, rfl, same.symm.trans found, new⟩
      cases eq_of_mem_firstPerTarget internal listed
    · cases loose.2.symm.trans found
      exact ⟨internal, loose, front, back, rfl, new⟩

/-- The target of an internal dependency that is not hidden is new under both policies
or under none. -/
theorem mem_targets_iff_of_internal {rest : List String}
    (unhidden : ¬ project.Hides file (references ++ reference :: rest) name)
    (found : (project.under .strict).dependency? file reference = some (name, false)) :
    name ∈ ((project.under .lenient).entries file references).map Prod.fst ↔
      name ∈ ((project.under .strict).entries file references).map Prod.fst := by
  refine ⟨fun listed => ?_, mem_targets_lenient⟩
  by_contra unlisted
  have external := (lenientOnly_of_mem_targets listed unlisted).2.2
  refine unhidden (hides_iff.mpr ⟨?_, entries_subset_append _ _ _ _ external⟩)
  exact mem_entries_iff.mpr ⟨references, reference, rest, rfl, found, unlisted⟩

/-- Without hidden dependencies both policies list the same internal ones. -/
theorem internal_entries_eq (unhidden : ∀ name, ¬ project.Hides file references name) :
    ((project.under .lenient).entries file references).filter (!·.2) =
      ((project.under .strict).entries file references).filter (!·.2) := by
  induction references using List.reverseRecOn with
  | nil => simp only [entries, List.filterMap_nil]
  | append_singleton done last ih =>
      have sofar := ih fun name hides => unhidden name (hides.append [last])
      rcases project.dependency?_under_cases file last with same | loose
      · cases found : (project.under .strict).dependency? file last with
        | none =>
            rw [entries_concat_of_none found, entries_concat_of_none (same.trans found), sofar]
        | some entry =>
            obtain ⟨target, isExternal⟩ := entry
            rw [entries_concat_of_some found, entries_concat_of_some (same.trans found)]
            cases isExternal with
            | true =>
                -- Whether it is new or not, an external entry is filtered out again.
                split <;> split <;> simpa [List.filter_append] using sofar
            | false =>
                simp only [mem_targets_iff_of_internal (unhidden target) found]
                split
                · exact sofar
                · rw [List.filter_append, List.filter_append, sofar]
      · rw [entries_concat_of_none loose.1, entries_concat_of_some loose.2]
        split <;> simpa [List.filter_append] using sofar

private theorem entries_strict_subset (unhidden : ∀ name, ¬ project.Hides file references name) :
    (project.under .strict).entries file references ⊆
      (project.under .lenient).entries file references := by
  rintro ⟨name, isExternal⟩ entry
  obtain ⟨⟨target, flag⟩, listed, rfl⟩ :=
    List.mem_map.mp (mem_targets_lenient (List.mem_map_of_mem entry))
  cases flag with
  | true =>
      cases isExternal with
      | true => exact listed
      | false => exact absurd (hides_iff.mpr ⟨entry, listed⟩) (unhidden _)
  | false =>
      have internal : (target, false) ∈
          ((project.under .lenient).entries file references).filter (!·.2) :=
        List.mem_filter.mpr ⟨listed, rfl⟩
      rw [internal_entries_eq unhidden] at internal
      cases eq_of_mem_firstPerTarget entry (List.mem_filter.mp internal).1
      exact listed

/-- The text of a file has a reference that hides an internal dependency of it. -/
def HidesImport (project : Project) (file : String) : Prop :=
  ∃ text name, project.tree.readText (project.fullPath file) = .ok text ∧
    project.Hides file (Reference.extract text) name

end Project

namespace Build

/-- What is kept along every traversal, whatever its limit. -/
structure Kept (project : Project) (points known : List String) (progress : Progress)
    (frames : List Frame) : Prop where
  covers : Covers project points known progress frames
  records : Records project progress frames

/-- Two stages, one of a traversal under each policy, that agree on the scanned files and
on the files that are still fresh. -/
structure InStep (strict lenient : Progress) : Prop where
  fresh : lenient.fresh = strict.fresh
  scanned : lenient.graph.scanned = strict.graph.scanned

/-- Two stages that are in step, with the same frames left to work off. -/
structure Alike (project : Project) (points known : List String) (strict lenient : Progress)
    (frames : List Frame) : Prop where
  inStep : InStep strict lenient
  strict : Kept (project.under .strict) points known strict frames
  lenient : Kept (project.under .lenient) points known lenient frames

section Lockstep

variable {project : Project} {limit : DepthLimit} {points known : List String}
  {strict lenient strictNext lenientNext : Progress} {frames next : List Frame}
  {file reference : String} {depth : Nat}

private theorem kept_step {task : Task} {state after : Progress × List Frame}
    (kept : Kept task.project points known state.1 state.2) (step : Step task points state after) :
    Kept task.project points known after.1 after.2 :=
  ⟨covers_step kept.covers step, records_step kept.covers kept.records step⟩

private theorem alike_start (project : Project) (points : List String) {start : Progress}
    (empty : start.graph = Graph.empty) (unasked : start.operations = []) (notice : Notice) :
    Alike project points start.fresh (start.note notice) (start.note notice) [] := by
  have graph : (start.note notice).graph = Graph.empty := empty
  have operations := (Progress.operations_note start notice).trans unasked
  exact
    { inStep := ⟨rfl, rfl⟩
      strict := ⟨covers_start _ points graph operations, records_start _ graph⟩
      lenient := ⟨covers_start _ points graph operations, records_start _ graph⟩ }

private theorem Alike.step (alike : Alike project points known strict lenient frames)
    (limit : DepthLimit) (inStep : InStep strictNext lenientNext)
    (one : Step ⟨project.under .strict, limit⟩ points (strict, frames) (strictNext, next))
    (other : Step ⟨project.under .lenient, limit⟩ points (lenient, frames) (lenientNext, next)) :
    Alike project points known strictNext lenientNext next :=
  ⟨inStep, kept_step alike.strict one, kept_step alike.lenient other⟩

/-- The policy plays no part in entering a file. -/
theorem InStep.enter {outcome : Except Failure (Option Frame)} (inStep : InStep strict lenient)
    (entered : Build.enter ⟨project.under .strict, limit⟩ depth file strict =
      (strictNext, outcome)) :
    ∃ lenientNext, Build.enter ⟨project.under .lenient, limit⟩ depth file lenient =
      (lenientNext, outcome) ∧ InStep strictNext lenientNext := by
  have left : InStep (strict.enter file) (lenient.enter file) :=
    ⟨congrArg (List.filter _) inStep.fresh, inStep.scanned⟩
  dsimp only [Build.enter, Project.under, Project.fullPath] at entered ⊢
  split at entered
  · cases entered
    exact ⟨_, rfl, inStep⟩
  · cases entered
    exact ⟨_, rfl, inStep.fresh, inStep.scanned⟩
  · split at entered
    · cases entered
      exact ⟨_, rfl, left⟩
    · cases entered
      exact ⟨_, rfl, left⟩
    · split at entered
      · cases entered
        exact ⟨_, rfl, left.fresh, left.scanned⟩
      · cases entered
        refine ⟨_, rfl, left.fresh, ?_⟩
        change (lenient.graph.addFile file).scanned = (strict.graph.addFile file).scanned
        rw [Graph.scanned_addFile, Graph.scanned_addFile, inStep.scanned]

/-- A reference of a file that hides nothing leads to the same new file under both
policies. -/
theorem Alike.target_eq {references : List String} {left right : Option String}
    (alike : Alike project points known strict lenient
      (⟨file, depth, reference :: references⟩ :: frames))
    (plain : ¬ project.HidesImport file)
    (one : Recorded ⟨project.under .strict, limit⟩ file reference strict strictNext left)
    (other : Recorded ⟨project.under .lenient, limit⟩ file reference lenient lenientNext right) :
    right = left := by
  obtain ⟨done, read, listed⟩ := alike.strict.records.suspended _ List.mem_cons_self
  obtain ⟨again, reread, also⟩ := alike.lenient.records.suspended _ List.mem_cons_self
  have same : again = done := List.append_cancel_right (Except.ok.inj (reread.symm.trans read))
  obtain ⟨text, decoded, whole⟩ := Project.exists_text_of_ofPath read
  dsimp only at listed also whole
  have joined : ∀ target, (project.under .strict).dependency? file reference =
      some (target, false) →
        lenient.graph.hasEdge file target = strict.graph.hasEdge file target := by
    intro target found
    rw [Bool.eq_iff_iff, Graph.hasEdge_iff_mem_dependencies, Graph.hasEdge_iff_mem_dependencies,
      listed, also, same]
    have unhidden : ¬ project.Hides file (done ++ reference :: references) target := by
      intro hides
      rw [whole] at hides
      exact plain ⟨text, target, decoded, hides⟩
    exact Project.mem_targets_iff_of_internal unhidden found
  rw [one.target_eq, other.target_eq]
  dsimp only
  rcases project.dependency?_under_cases file reference with agreed | loose
  · rw [agreed]
    cases found : (project.under .strict).dependency? file reference with
    | none => rfl
    | some entry =>
        obtain ⟨target, isExternal⟩ := entry
        cases isExternal with
        | true => simp only [Option.bind_some, Bool.true_or, ↓reduceIte]
        | false => rw [Option.bind_some, Option.bind_some, joined target found]
  · rw [loose.1, loose.2, Option.bind_none, Option.bind_some, Bool.true_or, if_pos rfl]

private theorem Alike.addReference {references : List String} {target : Option String}
    (alike : Alike project points known strict lenient
      (⟨file, depth, reference :: references⟩ :: frames))
    (plain : ¬ project.HidesImport file)
    (added : Build.addReference ⟨project.under .strict, limit⟩ file reference strict =
      (strictNext, target)) :
    ∃ lenientNext, Build.addReference ⟨project.under .lenient, limit⟩ file reference lenient =
      (lenientNext, target) ∧ InStep strictNext lenientNext := by
  rcases also : Build.addReference ⟨project.under .lenient, limit⟩ file reference lenient with
    ⟨lenientNext, other⟩
  have one := recorded_addReference added
  have two := recorded_addReference also
  cases alike.target_eq plain one two
  refine ⟨lenientNext, rfl, ?_, ?_⟩
  · rw [two.fresh, one.fresh, alike.inStep.fresh]
  · rw [two.scanned, one.scanned, alike.inStep.scanned]

/-- Traversals under the two policies stay in step while no file that is scanned under the
strict one hides a dependency. -/
theorem alike_run (comparable : limit.Comparable)
    (alike : Alike project points known strict lenient frames)
    (plain : ∀ file ∈ (run ⟨project.under .strict, limit⟩ strict frames).1.graph.scanned,
      ¬ project.HidesImport file) :
    ∃ final last, run ⟨project.under .strict, limit⟩ strict frames = (final, none) ∧
      run ⟨project.under .lenient, limit⟩ lenient frames = (last, none) ∧
        Alike project points known final last [] := by
  -- The induction follows the strict traversal; the other one makes the same moves.
  induction strict, frames using run_induction ⟨project.under .strict, limit⟩
    generalizing lenient with
  | nil progress => exact ⟨_, _, run_nil _ _, run_nil _ _, alike⟩
  | close progress file depth frames ih =>
      rw [run_close] at plain
      rw [run_close, run_close]
      exact ih (alike.step limit alike.inStep (.close file depth frames progress)
        (.close file depth frames lenient)) plain
  | @pass progress noted file reference target depth references frames added stale ih =>
      have scanned := alike.strict.covers.frames _ List.mem_cons_self
      obtain ⟨lenientNoted, also, inStep⟩ :=
        alike.addReference (plain file (scanned_subset_run comparable _ _ scanned)) added
      have alsoStale : ∀ next ∈ target, next ∉ lenientNoted.fresh := inStep.fresh ▸ stale
      have one := recorded_addReference added
      have two := recorded_addReference also
      rw [run_pass added stale] at plain
      rw [run_pass added stale, run_pass also alsoStale]
      exact ih (alike.step limit inStep
        (.pass depth references frames one (one.fresh ▸ stale))
        (.pass depth references frames two (two.fresh ▸ alsoStale))) plain
  | fail depth references frames added fresh failed =>
      exact absurd failed (enter_ne_error comparable (recorded_addReference added))
  | @descend progress noted next file reference target opened depth references frames added fresh
      entered ih =>
      have scanned := alike.strict.covers.frames _ List.mem_cons_self
      obtain ⟨lenientNoted, also, inStep⟩ :=
        alike.addReference (plain file (scanned_subset_run comparable _ _ scanned)) added
      have alsoFresh : target ∈ lenientNoted.fresh := inStep.fresh ▸ fresh
      obtain ⟨lenientNext, alsoEntered, after⟩ := inStep.enter entered
      have one := recorded_addReference added
      have two := recorded_addReference also
      rw [run_descend added fresh entered] at plain
      rw [run_descend added fresh entered, run_descend also alsoFresh alsoEntered]
      exact ih (alike.step limit after
        (.descend references frames one (one.fresh ▸ fresh) (entered_of_enter entered))
        (.descend references frames two (two.fresh ▸ alsoFresh)
          (entered_of_enter alsoEntered))) plain

/-- So do the traversals from one file, which fail under both policies or under none. -/
theorem alike_traverse (alike : Alike project points known strict lenient [])
    (chosen : file ∈ points)
    (first : file ∈ strict.fresh ∨ strict.openings = [] ∧ lenient.openings = [])
    (plain : ∀ other ∈ (traverse ⟨project.under .strict, limit⟩ file strict).1.graph.scanned,
      ¬ project.HidesImport other) :
    (∃ final last, traverse ⟨project.under .strict, limit⟩ file strict = (final, none) ∧
      traverse ⟨project.under .lenient, limit⟩ file lenient = (last, none) ∧
        Alike project points known final last []) ∨
      ∃ final last failure,
        traverse ⟨project.under .strict, limit⟩ file strict = (final, some failure) ∧
          traverse ⟨project.under .lenient, limit⟩ file lenient = (last, some failure) ∧
            InStep final last := by
  rcases entered : Build.enter ⟨project.under .strict, limit⟩ 0 file strict with
    ⟨strictNext, failure | opened⟩
  · obtain ⟨lenientNext, also, after⟩ := alike.inStep.enter entered
    exact Or.inr ⟨_, _, failure, traverse_of_error entered, traverse_of_error also, after⟩
  · obtain ⟨lenientNext, also, after⟩ := alike.inStep.enter entered
    have effect := entered_of_enter entered
    rw [traverse_of_enter entered] at plain
    rw [traverse_of_enter entered, traverse_of_enter also]
    refine Or.inl (alike_run effect.comparable (alike.step limit after (.start chosen ?_ effect)
      (.start chosen ?_ (entered_of_enter also))) plain)
    · exact first.imp_right And.left
    · exact first.imp (fun fresh => alike.inStep.fresh ▸ fresh) And.right

private theorem scanned_traverseAll_eq (alike : Alike project points known strict lenient [])
    {files : List String} (chosen : ∀ file ∈ files, file ∈ points)
    (plain : ∀ file ∈ (traverseAll ⟨project.under .strict, limit⟩ strict files).1.graph.scanned,
      ¬ project.HidesImport file) :
    (traverseAll ⟨project.under .lenient, limit⟩ lenient files).1.graph.scanned =
      (traverseAll ⟨project.under .strict, limit⟩ strict files).1.graph.scanned := by
  induction files generalizing strict lenient with
  | nil => exact alike.inStep.scanned
  | cons file files ih =>
      have others : ∀ other ∈ files, other ∈ points :=
        fun other member => chosen other (List.mem_cons_of_mem file member)
      rw [traverseAll] at plain
      rw [traverseAll, traverseAll, alike.inStep.fresh]
      by_cases fresh : file ∈ strict.fresh
      · rw [if_pos fresh] at plain
        rw [if_pos fresh, if_pos fresh]
        have within : ∀ other ∈
            (traverse ⟨project.under .strict, limit⟩ file strict).1.graph.scanned,
              ¬ project.HidesImport other := by
          intro other scanned
          refine plain other ?_
          rcases traversed : traverse ⟨project.under .strict, limit⟩ file strict with
            ⟨final, _ | failure⟩ <;> rw [traversed] at scanned
          · exact scanned_subset_traverseAll _ _ _ scanned
          · exact scanned
        rcases alike_traverse alike (chosen file List.mem_cons_self) (Or.inl fresh) within with
          ⟨final, last, one, other, still⟩ | ⟨final, last, failure, one, other, inStep⟩
        · rw [one] at plain
          rw [one, other]
          exact ih still others plain
        · rw [one, other]
          exact inStep.scanned
      · rw [if_neg fresh] at plain
        rw [if_neg fresh, if_neg fresh]
        exact ih alike others plain

private theorem startPoint?_under (project : Project) (policy : ExternalPolicy) (start : String) :
    startPoint? (project.under policy) start = startPoint? project start := by
  unfold startPoint? Project.under
  dsimp only

private theorem scanned_fromStart_eq {start : String} {progress : Progress}
    (empty : progress.graph = Graph.empty) (unasked : progress.operations = [])
    (unopened : progress.openings = [])
    (plain : ∀ file ∈ (fromStart ⟨project.under .strict, limit⟩ start progress).1.graph.scanned,
      ¬ project.HidesImport file) :
    (fromStart ⟨project.under .lenient, limit⟩ start progress).1.graph.scanned =
      (fromStart ⟨project.under .strict, limit⟩ start progress).1.graph.scanned := by
  by_cases named : ∃ point, startPoint? project start = .ok (some point)
  · obtain ⟨point, found⟩ := named
    have one := @fromStart_of_startPoint? ⟨project.under .strict, limit⟩ start point
      ((startPoint?_under project .strict start).trans found) progress
    have other := @fromStart_of_startPoint? ⟨project.under .lenient, limit⟩ start point
      ((startPoint?_under project .lenient start).trans found) progress
    have unopened := (Progress.openings_note progress (.startingFrom point)).trans unopened
    rw [one] at plain
    rw [one, other]
    rcases alike_traverse (alike_start project [point] empty unasked (.startingFrom point))
      (List.mem_singleton_self point) (Or.inr ⟨unopened, unopened⟩) plain with
      ⟨final, last, whole, also, ended⟩ | ⟨final, last, failure, whole, also, inStep⟩
    · rw [whole, also]
      exact ended.inStep.scanned
    · rw [whole, also]
      exact inStep.scanned
  · have unfound : ∀ policy point,
        startPoint? (project.under policy) start ≠ .ok (some point) := by
      intro policy point found
      exact named ⟨point, (startPoint?_under project policy start).symm.trans found⟩
    have one := @graph_fromStart_of_unfound ⟨project.under .strict, limit⟩ start
      (unfound .strict) progress
    have other := @graph_fromStart_of_unfound ⟨project.under .lenient, limit⟩ start
      (unfound .lenient) progress
    rw [one, other]

end Lockstep

section Whole

variable {project : Project} {request : BuildRequest}

private theorem opening_under (project : Project) (policy : ExternalPolicy) (request : BuildRequest)
    (found : List Notice) (files : List String) :
    opening (project.under policy) request found files = opening project request found files := by
  unfold opening openingNotices Project.under
  dsimp only

/-- Without a scanned file that hides a dependency, both policies scan the same files in
the same order. -/
theorem scanned_build_eq
    (plain : ∀ file ∈ (build (project.under .strict) request Store.empty).store.graph.scanned,
      ¬ project.HidesImport file) :
    (build (project.under .lenient) request Store.empty).store.graph.scanned =
      (build (project.under .strict) request Store.empty).store.graph.scanned := by
  rcases discovery : project.tree.discover request.filter project.root with
    ⟨found, failure | files⟩
  · have one := (@build_eq_of_error (project.under .strict) request _ _ discovery).1
    have other := (@build_eq_of_error (project.under .lenient) request _ _ discovery).1
    rw [one, other]
  · have one := (@build_eq_traversal (project.under .strict) request _ _ discovery).1
    have other := (@build_eq_traversal (project.under .lenient) request _ _ discovery).1
    rw [opening_under] at one other
    generalize begun : opening project request found files = start at one other
    have empty : start.graph = Graph.empty := begun ▸ Progress.graph_noteAll _ _
    have unasked : start.operations = [] := begun ▸ Progress.operations_noteAll _ _
    have unopened : start.openings = [] := begun ▸ Progress.openings_noteAll _ _
    rw [one] at plain
    rw [one, other]
    by_cases unnamed : request.startFile.getD "" = ""
    · rw [traversal_of_unnamed unnamed] at plain
      rw [traversal_of_unnamed unnamed, traversal_of_unnamed unnamed]
      exact scanned_traverseAll_eq (alike_start project files empty unasked .processingAll)
        (fun _ member => member) plain
    · rw [traversal_of_named unnamed] at plain
      rw [traversal_of_named unnamed, traversal_of_named unnamed]
      exact scanned_fromStart_eq empty unasked unopened plain

/-- Both builds list the dependencies that the references in one text stand for. -/
theorem exists_dependencies_under {file : String}
    (one : file ∈ (build (project.under .strict) request Store.empty).store.graph.scanned)
    (other : file ∈ (build (project.under .lenient) request Store.empty).store.graph.scanned) :
    ∃ text, project.tree.readText (project.fullPath file) = .ok text ∧
      (build (project.under .strict) request Store.empty).store.graph.dependencies file =
          (project.under .strict).entries file (Reference.extract text) ∧
        (build (project.under .lenient) request Store.empty).store.graph.dependencies file =
          (project.under .lenient).entries file (Reference.extract text) := by
  obtain ⟨text, read, whole⟩ := exists_dependencies_build one
  obtain ⟨again, reread, also⟩ := exists_dependencies_build other
  cases read.symm.trans reread
  exact ⟨text, read, whole, also⟩

/-- When the policy decides about external edges only: both policies scan the same files in
the same order with the same internal edges, and a lenient one has every edge of a strict
one, if and only if no file that a strict one scans has a reference that hides an internal
dependency. In a file that both scan, the hidden dependencies are those that a strict
policy lists as internal and a lenient one as external. -/
theorem policy_decides_external_iff (project : Project) (request : BuildRequest) :
    let strict := (build (project.under .strict) request Store.empty).store.graph
    let lenient := (build (project.under .lenient) request Store.empty).store.graph
    ((lenient.scanned = strict.scanned ∧ ∀ file ∈ strict.scanned,
        (lenient.dependencies file).filter (!·.2) = (strict.dependencies file).filter (!·.2) ∧
          strict.dependencies file ⊆ lenient.dependencies file) ↔
      ∀ file ∈ strict.scanned, ¬ project.HidesImport file) ∧
    ∀ file ∈ strict.scanned, file ∈ lenient.scanned →
      ∃ text, project.tree.readText (project.fullPath file) = .ok text ∧
        ∀ name, project.Hides file (Reference.extract text) name ↔
          (name, false) ∈ strict.dependencies file ∧ (name, true) ∈ lenient.dependencies file := by
  intro strict lenient
  refine ⟨⟨?_, fun plain => ?_⟩, fun file one other => ?_⟩
  · rintro ⟨same, edges⟩ file member ⟨text, name, read, hides⟩
    have also : file ∈ lenient.scanned := by rwa [same]
    obtain ⟨again, reread, one, other⟩ := exists_dependencies_under member also
    cases read.symm.trans reread
    obtain ⟨internal, external⟩ := Project.hides_iff.mp hides
    rw [← one] at internal
    have kept := (edges file member).2 internal
    rw [other] at kept
    cases eq_of_mem_firstPerTarget kept external
  · have same : lenient.scanned = strict.scanned := scanned_build_eq plain
    refine ⟨same, fun file member => ?_⟩
    have also : file ∈ lenient.scanned := by rwa [same]
    obtain ⟨text, read, one, other⟩ := exists_dependencies_under member also
    have unhidden : ∀ name, ¬ project.Hides file (Reference.extract text) name :=
      fun name hides => plain file member ⟨text, name, read, hides⟩
    rw [one, other]
    exact ⟨Project.internal_entries_eq unhidden, Project.entries_strict_subset unhidden⟩
  · obtain ⟨text, read, whole, also⟩ := exists_dependencies_under one other
    rw [whole, also]
    exact ⟨text, read, fun name => Project.hides_iff⟩

end Whole

/-- A file that refers to the file next to it twice, first by its bare name. -/
def hidingProject : Project where
  tree := .ofEntries
    [(["p"], .directory true true),
     (["p", "a.js"], .file "import 'b.js'import './b.js'".toUTF8.toList true),
     (["p", "b.js"], .file [] true)]
  root := projectRoot
  policy := .strict

private theorem child_hidingProject (policy : ExternalPolicy) :
    (hidingProject.under policy).Child "a.js"
        (.file "import 'b.js'import './b.js'".toUTF8.toList true) ∧
      (hidingProject.under policy).Child "b.js" (.file [] true) := by
  have opened : hidingProject.tree.IsOpen ["p"] := by decide
  cases policy <;>
    exact ⟨⟨rfl, opened, rfl, by decide +kernel⟩, ⟨rfl, opened, rfl, by decide +kernel⟩⟩

private theorem dependency?_hidingProject :
    hidingProject.LenientOnly "a.js" "b.js" ∧
      ∀ policy,
        (hidingProject.under policy).dependency? "a.js" "./b.js" = some ("b.js", false) := by
  constructor
  · have resolved : Resolution.resolve hidingProject.tree (hidingProject.fullPath "a.js") "b.js" =
        ⟨"b.js", false, false⟩ := by
      have elsewhere : ¬ Resolution.isLocal "b.js" = true := by decide +kernel
      unfold Resolution.resolve
      rw [if_neg elsewhere]
      decide +kernel
    unfold Project.LenientOnly Project.dependency?
    dsimp only [Project.under, Project.fullPath] at resolved ⊢
    rw [resolved]
    exact ⟨rfl, rfl⟩
  · intro policy
    obtain ⟨first, second⟩ := child_hidingProject policy
    exact first.dependency?_sibling second (by decide +kernel)

private theorem readText_hidingProject (policy : ExternalPolicy) :
    (hidingProject.under policy).tree.readText ((hidingProject.under policy).fullPath "a.js") =
        .ok "import 'b.js'import './b.js'" := by
  rw [(child_hidingProject policy).1.readText (Text.Utf8.decode_toUTF8 _)]
  cbv

private theorem discover_hidingProject :
    (hidingProject.tree.discover {} hidingProject.root).2 = .ok ["a.js", "b.js"] := by cbv

private theorem dependencies_hidingProject (policy : ExternalPolicy) :
    let graph := (build (hidingProject.under policy) { startFile := some "a.js" }
      Store.empty).store.graph
    graph.dependencies "a.js" = [("b.js", decide (policy = .lenient))] := by
  intro graph
  have whole : graph.dependencies "a.js" = _ :=
    dependencies_of_startPoint? rfl discover_hidingProject rfl (by decide)
      (child_hidingProject policy).1.startPoint? (readText_hidingProject policy)
  have extracted : Reference.extract "import 'b.js'import './b.js'" = ["b.js", "./b.js"] := by
    decide +kernel
  obtain ⟨loose, internal⟩ := dependency?_hidingProject
  rw [whole, extracted, Project.entries]
  cases policy with
  | strict =>
      rw [List.filterMap_cons_none loose.1, List.filterMap_cons_some (internal .strict)]
      rfl
  | lenient =>
      rw [List.filterMap_cons_some loose.2, List.filterMap_cons_some (internal .lenient)]
      decide

/-- Under a lenient policy the bare name takes the place of the file, which is not scanned. -/
theorem lenient_policy_hides_file :
    let strict := (build (hidingProject.under .strict) { startFile := some "a.js" }
      Store.empty).store.graph
    let lenient := (build (hidingProject.under .lenient) { startFile := some "a.js" }
      Store.empty).store.graph
    (strict.dependencies "a.js" = [("b.js", false)] ∧ "b.js" ∈ strict.scanned) ∧
      lenient.dependencies "a.js" = [("b.js", true)] ∧ "b.js" ∉ lenient.scanned := by
  intro strict lenient
  refine ⟨⟨dependencies_hidingProject .strict, ?_⟩, dependencies_hidingProject .lenient, ?_⟩
  · obtain ⟨first, final, unfolds⟩ :=
      exists_unfolds (hidingProject.under .strict) { startFile := some "a.js" }
    have edge : strict.HasInternalEdge "a.js" "b.js" := by
      rw [Graph.hasInternalEdge_iff_mem_dependencies, dependencies_hidingProject .strict]
      decide
    have store : strict = final.graph := unfolds.store
    have known : discovered (hidingProject.under .strict) { startFile := some "a.js" } =
        ["a.js", "b.js"] := discovered_of_ok discover_hidingProject
    have listed :
        "b.js" ∈ discovered (hidingProject.under .strict) { startFile := some "a.js" } := by
      rw [known]
      decide
    have second := (child_hidingProject .strict).2
    rw [store] at edge ⊢
    exact unfolds.covers.stale "b.js" listed (unfolds.settled rfl _ _ edge) second.isRegular
      ⟨_, second.readText rfl⟩
  · intro scanned
    obtain ⟨first, final, unfolds⟩ :=
      exists_unfolds (hidingProject.under .lenient) { startFile := some "a.js" }
    have starts : startsFrom (hidingProject.under .lenient) { startFile := some "a.js" } =
        ["a.js"] :=
      startsFrom_of_named rfl (by decide) (child_hidingProject .lenient).1.startPoint?
    have store : lenient = final.graph := unfolds.store
    have none : ∀ target, ¬ final.graph.HasInternalEdge "a.js" target := by
      intro target
      rw [← store, Graph.hasInternalEdge_iff_mem_dependencies, dependencies_hidingProject .lenient]
      simp only [decide_true, List.mem_cons, Prod.mk.injEq, Bool.false_eq_true, and_false,
        List.not_mem_nil, or_self, not_false_eq_true]
    rw [store] at scanned
    obtain ⟨point, chosen, path⟩ := unfolds.covers.reached "b.js" scanned
    rw [starts, List.mem_singleton] at chosen
    subst chosen
    rcases path.cases_head with same | ⟨next, joined, -⟩
    · exact absurd same (by decide)
    · exact none next joined.2.2

end Build

end ModuleAtlas
