import Mathlib.Data.String.Basic
import ModuleAtlas.Proofs.Build.Siblings

/-! # When a build returns

A build probes paths at four places: the root, the start file, every file that it
enters and every target that a reference resolves to. A path is *refused* when the
fault met on the way does not only say that nothing is there
(`ModuleAtlas.FileTree.Refuses`). A refused target is recorded as an external
dependency, and a file that cannot be read or decoded is left out, but a refused
start file or a refused discovered file ends the build. Below a root that is not
refused, these are the only ends that a build can come to
(`ModuleAtlas.Build.build_completes_iff`).
-/

namespace ModuleAtlas

namespace FileTree

/-- Looking at what stands where a path leads is refused with a fault. -/
structure Refuses (tree : FileTree) (path : String) (fault : Fault) : Prop where
  stat : tree.stat path = .error fault
  hard : fault.isAbsence = false

/-- Following names meets only faults that say that nothing is there, directories
that may not be searched, and names that are too long. -/
theorem isAbsence_or_of_walk {tree : FileTree} {follow : Bool} {links : Nat} {here : Location}
    {names : List String} {fault : Fault}
    (walked : tree.walk follow links here names = .error fault) :
    fault.isAbsence = true ∨ fault = .denied ∨ fault = .nameTooLong := by
  fun_induction walk tree follow links here names with
  | case1 => cases walked
  | case2 => cases walked; exact Or.inr (Or.inl rfl)
  | case3 _ _ _ _ _ _ _ ih => exact ih walked
  | case4 _ _ _ _ _ _ _ _ ih => exact ih walked
  | case5 => cases walked; exact Or.inr (Or.inr rfl)
  | case6 => cases walked
  | case7 => cases walked; exact Or.inl rfl
  | case8 => cases walked
  | case9 => cases walked; exact Or.inl rfl
  | case10 _ _ _ _ _ _ _ _ _ _ _ _ _ _ ih => exact ih walked
  | case11 _ _ _ _ _ _ _ _ _ _ _ _ _ _ ih => exact ih walked
  | case12 => cases walked; exact Or.inl rfl

private theorem Refuses.eq_denied_or_nameTooLong {tree : FileTree} {path : String} {fault : Fault}
    (refuses : tree.Refuses path fault) : fault = .denied ∨ fault = .nameTooLong := by
  obtain ⟨stat, hard⟩ := refuses
  unfold FileTree.stat at stat
  cases located : tree.locate true path with
  | ok location =>
      rw [located] at stat
      dsimp only [bind, Except.bind] at stat
      split at stat <;> cases stat
      cases hard
  | error other =>
      rw [located] at stat
      cases stat
      unfold locate at located
      split at located
      · cases located
        cases hard
      · split at located
        · cases located
          cases hard
        · split at located
          · cases located
            exact Or.inr rfl
          · rcases isAbsence_or_of_walk located with absence | refused
            · cases hard.symm.trans absence
            · exact refused

/-- A name that is too long is refused, also where nothing could bear it. -/
theorem refuses_of_long_name {tree : FileTree} {path : Path} {directory : Location} {name : String}
    (absolute : path.isAbsolute = true) (parts : path.parts = directory ++ [name])
    (plain : ∀ part ∈ path.parts, '\x00' ∉ part.toList)
    (short : path.toString.utf8ByteSize < pathLimit) (opened : tree.IsOpen directory)
    (long : nameLimit < name.utf8ByteSize) : tree.Refuses path.toString .nameTooLong := by
  have nonempty : path.parts ≠ [] := by
    rw [parts]
    simp only [ne_eq, List.append_eq_nil_iff, List.cons_ne_self, and_false, not_false_eq_true]
  obtain ⟨_, searchable⟩ := opened.exists_directory List.prefix_rfl
  refine ⟨?_, rfl⟩
  unfold FileTree.stat
  rw [locate_of_isOpen absolute nonempty plain short parts opened,
    walk_of_long_name searchable long]
  rfl

/-- A probe fails exactly if its path is refused, and says so. -/
theorem probe_eq_error_iff {tree : FileTree} {test : Entry → Bool} {path : String}
    {failure : Failure} :
    tree.probe test path = .error failure ↔
      ∃ fault, tree.Refuses path fault ∧ failure = .file fault path := by
  unfold probe
  cases stat : tree.stat path with
  | ok entry =>
      constructor
      · intro failed
        cases failed
      · rintro ⟨fault, ⟨refused, -⟩, -⟩
        cases stat.symm.trans refused
  | error fault =>
      dsimp only
      constructor
      · intro failed
        split at failed
        · cases failed
        · next hard =>
            cases failed
            exact ⟨fault, ⟨stat, Bool.not_eq_true _ ▸ hard⟩, rfl⟩
      · rintro ⟨other, ⟨refused, hard⟩, rfl⟩
        cases stat.symm.trans refused
        rw [if_neg (by simp only [hard, Bool.false_eq_true, not_false_eq_true])]

private theorem exists_probe_eq_ok {tree : FileTree} {path : String}
    (answered : ∀ fault, ¬ tree.Refuses path fault) (test : Entry → Bool) :
    ∃ answer, tree.probe test path = .ok answer := by
  cases probed : tree.probe test path with
  | ok answer => exact ⟨answer, rfl⟩
  | error failure =>
      obtain ⟨fault, refused, -⟩ := probe_eq_error_iff.mp probed
      exact absurd refused (answered fault)

/-- Discovery gives a listing for every root that the file system does not refuse. -/
theorem exists_discover_eq_ok {tree : FileTree} {root : Path}
    (answered : ∀ fault, ¬ tree.Refuses root.toString fault) (filter : SourceFilter) :
    ∃ found files, tree.discover filter root = (found, .ok files) := by
  obtain ⟨present, exists?⟩ := exists_probe_eq_ok answered fun _ => true
  obtain ⟨isDirectory, directory⟩ := exists_probe_eq_ok answered Entry.isDirectory
  unfold discover FileTree.exists? isDirectory?
  dsimp only
  rw [exists?, directory]
  cases present with
  | false => exact ⟨_, _, rfl⟩
  | true =>
      cases isDirectory with
      | false => exact ⟨_, _, rfl⟩
      | true => cases tree.locate true root.toString <;> exact ⟨_, _, rfl⟩

end FileTree

namespace Build

/-- The paths that a build probes before it looks into a file: that of the start
file if one is given, or else those of all discovered files. -/
def firstProbes (project : Project) (request : BuildRequest) : List String :=
  if request.startFile.getD "" = "" then (discovered project request).map project.fullPath
  else [(project.root.join (request.startFile.getD "")).normalize.toString]

private theorem frozen_build (project : Project) (request : BuildRequest) :
    (build project request Store.empty).store.frozen =
      (build project request Store.empty).failure.isNone := by
  rcases discovery : project.tree.discover request.filter project.root with
    ⟨found, failure | files⟩
  · simp only [build, discovery, Bool.false_eq_true, ↓reduceIte, Store.empty, Option.isNone_some]
  · rw [build_eq_ended discovery]
    rcases traversal ⟨project, request.limit⟩ request.startFile files _ with
      ⟨progress, _ | failure⟩ <;> rfl

section Traversals

variable {task : Task} {points known : List String}

private theorem exists_isFile?_of_traverseAll_failed {files : List String} {progress : Progress}
    {failure : Failure} (comparable : task.limit.Comparable)
    (failed : (traverseAll task progress files).2 = some failure) :
    ∃ file ∈ files, task.project.tree.isFile? (task.project.fullPath file) = .error failure := by
  induction files generalizing progress with
  | nil => cases failed
  | cons file files ih =>
      rw [traverseAll] at failed
      split at failed
      · rcases traversed : traverse task file progress with ⟨next, _ | reason⟩
        · rw [traversed] at failed
          obtain ⟨other, member, refused⟩ := ih failed
          exact ⟨other, List.mem_cons_of_mem file member, refused⟩
        · rw [traversed] at failed
          cases failed
          have refused : (traverse task file progress).2 = some failure := by rw [traversed]
          exact ⟨file, List.mem_cons_self, isFile?_of_traverse_failed comparable refused⟩
      · obtain ⟨other, member, refused⟩ := ih failed
        exact ⟨other, List.mem_cons_of_mem file member, refused⟩

/-- Every known file that is no longer fresh was probed. -/
def Probed (project : Project) (known : List String) (progress : Progress) : Prop :=
  ∀ file ∈ known, file ∉ progress.fresh →
    ∃ regular, project.tree.isFile? (project.fullPath file) = .ok regular

private theorem Probed.enter {before after : Progress} {depth : Nat} {file : String}
    {opened : Option Frame} (probed : Probed task.project known before)
    (entered : Entered task depth file before after opened) :
    Probed task.project known after := by
  intro other listed stale
  by_cases waiting : other ∈ before.fresh
  · -- Only the file that was entered has left the fresh ones.
    have left : after.fresh = before.fresh.filter (· ≠ file) → other = file := by
      intro fresh
      rw [fresh, List.mem_filter, decide_eq_true_eq, not_and, Decidable.not_not] at stale
      exact stale waiting
    cases entered with
    | beyond _ _ same => exact absurd (same ▸ waiting) stale
    | irregular _ irregular _ fresh => exact ⟨false, left fresh ▸ irregular⟩
    | unreadable _ regular _ _ fresh => exact ⟨true, left fresh ▸ regular⟩
    | opened _ regular _ _ fresh => exact ⟨true, left fresh ▸ regular⟩
  · exact probed other listed waiting

private theorem probed_step {state next : Progress × List Frame}
    (probed : Probed task.project known state.1) (step : Step task points state next) :
    Probed task.project known next.1 := by
  cases step with
  | start _ _ entered => exact probed.enter entered
  | close => exact probed
  | pass depth references frames recorded =>
      intro file listed stale
      exact probed file listed (recorded.fresh ▸ stale)
  | descend references frames recorded fresh entered =>
      have noted : Probed task.project known _ := fun file listed stale =>
        probed file listed (recorded.fresh ▸ stale)
      exact noted.enter entered

/-- What was probed stays probed along every run of steps. -/
theorem probed_steps {state last : Progress × List Frame}
    (probed : Probed task.project known state.1) (steps : Steps task points state last) :
    Probed task.project known last.1 := by
  induction steps with
  | refl => exact probed
  | tail _ step ih => exact probed_step ih step

/-- A file that was tried within the limit was probed. -/
theorem Tried.exists_isFile? {file : String} {final : Progress}
    (tried : Tried task points known file final)
    (within : task.limit.isExceededBy 0 = .ok false) (probed : Probed task.project known final) :
    ∃ regular, task.project.tree.isFile? (task.project.fullPath file) = .ok regular := by
  cases tried with
  | entered entered _ =>
      cases entered with
      | beyond exceeded => cases within.symm.trans exceeded
      | irregular _ irregular => exact ⟨false, irregular⟩
      | unreadable _ regular => exact ⟨true, regular⟩
      | opened _ regular => exact ⟨true, regular⟩
  | stale listed stale rest =>
      exact probed file listed fun fresh => stale ((subset_of_steps rest).2 fresh)

end Traversals

section Ending

variable {project : Project} {request : BuildRequest}

private theorem Unfolds.probed {first final : Progress}
    (unfolds : Unfolds project request first final) :
    Probed project (discovered project request) final := by
  have probed : Probed project (discovered project request) first := by
    intro file listed stale
    rw [unfolds.fresh] at stale
    exact absurd listed stale
  exact @probed_steps ⟨project, request.limit⟩ _ _ (first, []) (final, []) probed unfolds.steps

/-- A build from all files that succeeds has had an answer for each of them. -/
theorem exists_isFile?_of_unnamed {file : String} (unnamed : request.startFile.getD "" = "")
    (within : request.limit.isExceededBy 0 = .ok false)
    (succeeded : (build project request Store.empty).failure = none)
    (listed : file ∈ discovered project request) :
    ∃ regular, project.tree.isFile? (project.fullPath file) = .ok regular := by
  obtain ⟨first, final, unfolds⟩ := exists_unfolds project request
  have tried := unfolds.tried succeeded file (startsFrom_of_unnamed unnamed ▸ listed)
  exact tried.exists_isFile? within unfolds.probed

private theorem startPoint?_eq_error_iff {start : String} {failure : Failure} :
    startPoint? project start = .error failure ↔
      project.tree.isFile? (project.root.join start).normalize.toString = .error failure := by
  unfold startPoint?
  dsimp only
  cases project.tree.isFile? (project.root.join start).normalize.toString with
  | error other => exact ⟨fun same => by cases same; rfl, fun same => by cases same; rfl⟩
  | ok regular =>
      cases (project.root.join start).normalize.relativeTo? project.root <;> cases regular <;>
        simp only [reduceCtorEq]

/-- A build that fails below a root that is not refused was refused one of the paths
that it probed first. -/
theorem exists_refuses_of_failed {failure : Failure}
    (answered : ∀ fault, ¬ project.tree.Refuses project.root.toString fault)
    (comparable : request.limit.Comparable)
    (failed : (build project request Store.empty).failure = some failure) :
    ∃ path ∈ firstProbes project request, ∃ fault,
      project.tree.Refuses path fault ∧ failure = .file fault path := by
  obtain ⟨found, files, discovery⟩ := FileTree.exists_discover_eq_ok answered request.filter
  rw [(build_eq_traversal discovery).2.2] at failed
  have all := discovered_of_ok (congrArg Prod.snd discovery)
  unfold firstProbes
  by_cases unnamed : request.startFile.getD "" = ""
  · rw [if_pos unnamed, all]
    rw [traversal_of_unnamed unnamed] at failed
    obtain ⟨file, member, refused⟩ := exists_isFile?_of_traverseAll_failed comparable failed
    exact ⟨project.fullPath file, List.mem_map_of_mem member,
      FileTree.probe_eq_error_iff.mp refused⟩
  · rw [if_neg unnamed]
    rw [traversal_of_named unnamed] at failed
    rcases fromStart_cases ⟨project, request.limit⟩ (request.startFile.getD "")
      (opening project request found files) with ⟨other, unknown, whole⟩ | ⟨_, _, whole⟩ |
      ⟨point, notice, start, whole⟩
    · rw [whole] at failed
      cases failed
      exact ⟨_, List.mem_singleton_self _,
        FileTree.probe_eq_error_iff.mp (startPoint?_eq_error_iff.mp unknown)⟩
    · rw [whole] at failed
      cases failed
    · rw [whole] at failed
      have refused := isFile?_of_traverse_failed comparable failed
      cases (isRegular_of_startPoint? start).symm.trans refused

/-- A build that succeeds has had an answer for every path that it probed first. -/
theorem not_refuses_of_succeeded {path : String} {fault : Fault}
    (answered : ∀ fault, ¬ project.tree.Refuses project.root.toString fault)
    (within : request.limit.isExceededBy 0 = .ok false)
    (succeeded : (build project request Store.empty).failure = none)
    (member : path ∈ firstProbes project request) : ¬ project.tree.Refuses path fault := by
  intro refuses
  have refused : project.tree.isFile? path = .error (.file fault path) :=
    FileTree.probe_eq_error_iff.mpr ⟨fault, refuses, rfl⟩
  unfold firstProbes at member
  by_cases unnamed : request.startFile.getD "" = ""
  · rw [if_pos unnamed] at member
    obtain ⟨file, listed, rfl⟩ := List.mem_map.mp member
    obtain ⟨regular, probed⟩ := exists_isFile?_of_unnamed unnamed within succeeded listed
    cases probed.symm.trans refused
  · rw [if_neg unnamed, List.mem_singleton] at member
    subst member
    obtain ⟨found, files, discovery⟩ := FileTree.exists_discover_eq_ok answered request.filter
    rw [(build_eq_traversal discovery).2.2, traversal_of_named unnamed] at succeeded
    have unknown := startPoint?_eq_error_iff.mpr refused
    rcases fromStart_cases ⟨project, request.limit⟩ (request.startFile.getD "")
      (opening project request found files) with ⟨other, _, whole⟩ | ⟨_, missing, _⟩ |
      ⟨_, _, start, _⟩
    · rw [whole] at succeeded
      cases succeeded
    · cases unknown.symm.trans missing
    · cases unknown.symm.trans start

end Ending

/-- Below a root that is not refused, a build without a limit or with one that is not
negative returns with a frozen store exactly if its start file, or every discovered
file if none is given, is not refused. A build that fails names one of these paths
and the fault met there, a denied directory or a name that is too long. So no file
that cannot be read or decoded, no directory that cannot be listed and no reference
ends a build. -/
theorem build_completes_iff (project : Project) (request : BuildRequest)
    (answered : ∀ fault, ¬ project.tree.Refuses project.root.toString fault)
    (limit : request.limit = .unlimited ∨ ∃ bound : Nat, request.limit = .atMost bound) :
    let built := build project request Store.empty
    (built.failure = none ∧ built.store.frozen = true ↔
      ∀ path ∈ firstProbes project request, ∀ fault, ¬ project.tree.Refuses path fault) ∧
    ∀ failure, built.failure = some failure → built.store.frozen = false ∧
      ∃ path ∈ firstProbes project request, ∃ fault, project.tree.Refuses path fault ∧
        (fault = .denied ∨ fault = .nameTooLong) ∧ failure = .file fault path := by
  intro built
  have within : request.limit.isExceededBy 0 = .ok false := by
    rcases limit with unlimited | ⟨bound, bounded⟩
    · rw [unlimited]
      rfl
    · rw [bounded]
      exact DepthLimit.isExceededBy_zero bound
  have comparable := DepthLimit.comparable_of_isExceededBy within
  have frozen : built.store.frozen = built.failure.isNone := frozen_build project request
  refine ⟨⟨fun returned path member fault => ?_, fun unrefused => ?_⟩, fun failure failed => ?_⟩
  · exact not_refuses_of_succeeded answered within returned.1 member
  · have succeeded : built.failure = none := by
      cases ended : built.failure with
      | none => rfl
      | some failure =>
          obtain ⟨path, member, fault, refuses, -⟩ :=
            exists_refuses_of_failed answered comparable ended
          exact absurd refuses (unrefused path member fault)
    rw [frozen, succeeded]
    exact ⟨rfl, rfl⟩
  · obtain ⟨path, member, fault, refuses, named⟩ :=
      exists_refuses_of_failed answered comparable failed
    rw [frozen, failed]
    exact ⟨rfl, path, member, fault, refuses, refuses.eq_denied_or_nameTooLong, named⟩

/-- A file that may not be read, a file that is no text, and a directory that may not be
listed. -/
def troubledProject : Project where
  tree := .ofEntries
    [(["p"], .directory true true),
     (["p", "a.js"], .file [] false),
     (["p", "b.js"], .file [255] true),
     (["p", "shut"], .directory false true)]
  root := projectRoot
  policy := .lenient

/-- No trouble of this kind keeps a build from returning. -/
theorem build_completes_despite_trouble :
    let built := build troubledProject {} Store.empty
    (∀ fault, ¬ troubledProject.tree.Refuses troubledProject.root.toString fault) ∧
      (¬ troubledProject.IsReadable "a.js" ∧ ¬ troubledProject.IsReadable "b.js") ∧
      built.failure = none ∧ built.store.frozen = true := by
  intro built
  have opened : troubledProject.tree.IsOpen ["p"] := by decide
  have first : troubledProject.Child "a.js" (.file [] false) :=
    ⟨rfl, opened, rfl, by decide +kernel⟩
  have second : troubledProject.Child "b.js" (.file [255] true) :=
    ⟨rfl, opened, rfl, by decide +kernel⟩
  have answered : ∀ fault, ¬ troubledProject.tree.Refuses troubledProject.root.toString fault := by
    have top : troubledProject.root.parts = [] ++ ["p"] := rfl
    have root : troubledProject.tree.stat troubledProject.root.toString =
        .ok (.directory true true) :=
      FileTree.stat_of_isOpen rfl (by decide +kernel) top (by decide) rfl
        (Entry.directory_ne_link _ _)
    intro fault refused
    cases root.symm.trans refused.stat
  have denied : ¬ troubledProject.IsReadable "a.js" := by
    rintro ⟨text, read⟩
    unfold FileTree.readText FileTree.readBytes at read
    rw [first.stat (Entry.file_ne_link _ _)] at read
    cases read
  have undecodable : ¬ troubledProject.IsReadable "b.js" := by
    rintro ⟨text, read⟩
    have fault : ∃ fault, Text.Utf8.decode [255] = .error fault := ⟨_, by cbv⟩
    obtain ⟨fault, failed⟩ := fault
    unfold FileTree.readText FileTree.readBytes at read
    rw [second.stat (Entry.file_ne_link _ _)] at read
    dsimp only [bind, Except.bind] at read
    rw [failed] at read
    cases read
  have probes : firstProbes troubledProject {} =
      [troubledProject.fullPath "a.js", troubledProject.fullPath "b.js"] := by
    have discovery : (troubledProject.tree.discover {} troubledProject.root).2 =
        .ok ["a.js", "b.js"] := by cbv
    unfold firstProbes discovered
    rw [discovery]
    rfl
  have unrefused : ∀ path ∈ firstProbes troubledProject {}, ∀ fault,
      ¬ troubledProject.tree.Refuses path fault := by
    intro path member fault refused
    rw [probes, List.mem_pair] at member
    rcases member with rfl | rfl
    · cases (first.stat (Entry.file_ne_link _ _)).symm.trans refused.stat
    · cases (second.stat (Entry.file_ne_link _ _)).symm.trans refused.stat
  obtain ⟨completes, -⟩ := build_completes_iff troubledProject {} answered (Or.inl rfl)
  exact ⟨answered, ⟨denied, undecodable⟩, completes.mpr unrefused⟩

/-- Every start file whose name is too long ends a build. -/
theorem failure_of_long_start {project : Project} {request : BuildRequest} {start : String}
    (answered : ∀ fault, ¬ project.tree.Refuses project.root.toString fault)
    (within : request.limit.isExceededBy 0 = .ok false)
    (absolute : project.root.isAbsolute = true) (opened : project.tree.IsOpen project.root.parts)
    (named : request.startFile = some start) (long : nameLimit < start.utf8ByteSize)
    (clean : '/' ∉ start.toList) (plain : '\x00' ∉ start.toList)
    (short : project.root.toString.utf8ByteSize + 1 + start.utf8ByteSize < pathLimit) :
    (build project request Store.empty).failure =
      some (.file .nameTooLong (project.fullPath start)) := by
  have pieces := Text.splitAt_of_notMem clean
  have normal : Path.IsNormal start := by
    intro piece member
    rw [pieces, List.mem_singleton] at member
    subst member
    refine ⟨?_, ?_, ?_⟩ <;> rintro rfl <;> exact absurd long (by decide)
  have proper : ∀ part ∈ [start], Path.IsProper part := pieces ▸ normal.isProper
  have joined : project.root.join start = project.root.extend [start] proper := by
    rw [normal.join_eq]
    simp only [pieces]
  obtain ⟨_, root⟩ := opened.exists_directory List.prefix_rfl
  have valid := FileTree.isEntryName_of_entry? root
  have refuses : project.tree.Refuses (project.fullPath start) .nameTooLong := by
    have fits := (Path.utf8ByteSize_spell_concat_le absolute start).trans_lt short
    rw [Project.fullPath, joined]
    refine FileTree.refuses_of_long_name absolute rfl (fun part member => ?_) fits opened long
    rcases List.mem_append.mp member with above | last
    · exact nul_notMem_of_isEntryName (valid part above)
    · rw [List.mem_singleton.mp last]
      exact plain
  have probes : firstProbes project request = [project.fullPath start] := by
    have spelled : start ≠ "" := by
      rintro rfl
      exact absurd long (by decide)
    have noDots : ".." ∉ project.root.parts := fun dots =>
      (isProper_of_isEntryName (valid ".." dots)).2 rfl
    rw [firstProbes, named, Option.getD_some, if_neg spelled, normal.normalize_join noDots]
    rfl
  cases ended : (build project request Store.empty).failure with
  | none =>
      have member : project.fullPath start ∈ firstProbes project request := by
        simp only [probes, List.mem_cons, List.not_mem_nil, or_false]
      exact absurd refuses (not_refuses_of_succeeded answered within ended member)
  | some failure =>
      have comparable := DepthLimit.comparable_of_isExceededBy within
      obtain ⟨path, member, fault, refused, rfl⟩ :=
        exists_refuses_of_failed answered comparable ended
      rw [probes, List.mem_singleton] at member
      subst member
      cases refuses.stat.symm.trans refused.stat
      rfl

/-- A name that is one byte longer than the name of an entry can be. -/
def longName : String := String.ofList (List.replicate (nameLimit + 1) 'n')

/-- The long name is one byte longer than a name may be. -/
theorem utf8ByteSize_longName : longName.utf8ByteSize = nameLimit + 1 := by
  rw [longName, String.utf8ByteSize_ofList]
  induction nameLimit + 1 with
  | zero => rfl
  | succ count ih =>
      rw [List.replicate_succ, String.utf8Len_cons, ih]
      rfl

private theorem stat_root_loopProject :
    loopProject.tree.stat loopProject.root.toString = .ok (.directory true true) := by
  have top : loopProject.root.parts = [] ++ ["p"] := rfl
  exact FileTree.stat_of_isOpen rfl (by decide +kernel) top (by decide) rfl
        (Entry.directory_ne_link _ _)

/-- A start file whose name is too long ends the build of a project whose root can be
read and listed. -/
theorem build_fails_on_long_start :
    let built := build loopProject { startFile := some longName } Store.empty
    loopProject.tree.stat loopProject.root.toString = .ok (.directory true true) ∧
      built.failure = some (.file .nameTooLong (loopProject.fullPath longName)) ∧
        built.store.frozen = false := by
  intro built
  have letters : ∀ c ∈ longName.toList, c = 'n' := by
    intro c member
    rw [longName, String.toList_ofList] at member
    exact List.eq_of_mem_replicate member
  have short : loopProject.root.toString.utf8ByteSize + 1 + longName.utf8ByteSize < pathLimit := by
    rw [utf8ByteSize_longName]
    decide +kernel
  have failed : built.failure = some (.file .nameTooLong (loopProject.fullPath longName)) := by
    refine failure_of_long_start (fun fault refused => ?_) rfl rfl (by decide) rfl ?_
      (fun slash => ?_) (fun nul => ?_) short
    · cases stat_root_loopProject.symm.trans refused.stat
    · rw [utf8ByteSize_longName]
      exact Nat.lt_succ_self nameLimit
    · exact absurd (letters _ slash) (by decide)
    · exact absurd (letters _ nul) (by decide)
  have frozen : built.store.frozen = built.failure.isNone := frozen_build loopProject _
  rw [frozen, failed]
  exact ⟨stat_root_loopProject, rfl, rfl⟩

end Build

end ModuleAtlas
