import ModuleAtlas.Proofs.Scan.Outcome
import ModuleAtlas.Proofs.Session.Interleaving
import ModuleAtlas.Proofs.Watch.Batches

/-! # Which scanned files are watched

What is scanned is decided by the options of the scan, what is watched by the settings
alone. A scanned file is watched exactly if the filter of the settings lets it pass
(`ModuleAtlas.Settings.watches_iff`). All scanned files but the one that the scan starts from
have passed the filter of the scan (`ModuleAtlas.startsFrom_or_passes`), which is that of the
settings unless an option replaces it (`ModuleAtlas.NamedOptions.Overrides.filter_eq`). The file
that a scan starts from has passed no filter, so it may be scanned and not be watched.
-/

namespace ModuleAtlas

namespace Watcher

variable {watcher : Watcher}

/-- The event of an edit of a file. -/
def edited (path : Path) : WatchEvent where
  change := .modified
  path := .text path.toString

private theorem handle_edited_of_none {path : Path}
    (strange : watcher.accepted? path.toString = none) :
    watcher.handle (edited path) = .ok (watcher, []) := by
  have brought : [path.toString].filterMap watcher.accepted? = [] :=
    List.filterMap_cons_none strange
  exact if_pos (List.isEmpty_iff.mpr (asSet_eq_nil_iff.mpr brought))

private theorem handle_edited_of_some {path : Path} {file : String}
    (known : watcher.accepted? path.toString = some file) :
    ∃ notices, watcher.handle (edited path) = .ok (watcher.gather [file], notices) := by
  have brought : [path.toString].filterMap watcher.accepted? = [file] :=
    List.filterMap_cons_some known
  have filled : ¬ (asSet ([path.toString].filterMap watcher.accepted?)).isEmpty = true := by
    rw [List.isEmpty_iff, asSet_eq_nil_iff, brought]
    exact List.cons_ne_nil file []
  rw [← brought]
  exact ⟨_, if_neg filled⟩

end Watcher

namespace Settings

variable {settings : Settings} {tree : FileTree} {watcher : Watcher} {file : String}

/-- A watcher is set up by settings if it has their root and their filter, whatever it has
collected. -/
def SetsUp (settings : Settings) (tree : FileTree) (watcher : Watcher) : Prop :=
  watcher.root = settings.rootDir tree ∧ watcher.filter = settings.filter

/-- A file is watched if each watcher that the settings set up takes in an edit of it: the
file is collected, the timer is set, and the next batch has the file. -/
def Watches (settings : Settings) (tree : FileTree) (file : String) : Prop :=
  ∀ watcher, settings.SetsUp tree watcher →
    ∃ after notices,
      watcher.handle (Watcher.edited (watcher.root.join file)) = .ok (after, notices) ∧
      file ∈ after.pending ∧ after.timer = true ∧
        ∃ batch, after.flush.2 = some batch ∧ file ∈ batch

section Watches

variable {parts : List String} (names : ∀ part ∈ parts, Path.IsProper part)

include names

private theorem accepted?_of_setsUp (ready : settings.SetsUp tree watcher) :
    watcher.accepted? (watcher.root.join (Path.relativeText parts)).toString =
      if settings.filter.ignores (Path.relativeText parts) = false ∧
        settings.filter.supports (Path.relativeText parts) = true
      then some (Path.relativeText parts) else none := by
  have accepted := @Watcher.accepted?_join watcher parts names
  rwa [ready.2] at accepted

private theorem handle_edited_of_not_passes
    (stopped : ¬ (settings.filter.ignores (Path.relativeText parts) = false ∧
      settings.filter.supports (Path.relativeText parts) = true))
    (ready : settings.SetsUp tree watcher) :
    watcher.handle (Watcher.edited (watcher.root.join (Path.relativeText parts))) =
      .ok (watcher, []) := by
  apply Watcher.handle_edited_of_none
  rw [accepted?_of_setsUp names ready, if_neg stopped]

/-- A file below the root is watched exactly if the filter of the settings lets it pass. -/
theorem watches_iff : settings.Watches tree (Path.relativeText parts) ↔
    settings.filter.ignores (Path.relativeText parts) = false ∧
      settings.filter.supports (Path.relativeText parts) = true := by
  constructor
  · intro watched
    by_contra stopped
    have ready : settings.SetsUp tree (Watcher.start (settings.rootDir tree) settings.filter) :=
      ⟨rfl, rfl⟩
    obtain ⟨after, notices, handled, collected, -⟩ := watched _ ready
    cases handled.symm.trans (handle_edited_of_not_passes names stopped ready)
    cases collected
  · intro passes watcher ready
    have accepted := accepted?_of_setsUp names ready
    rw [if_pos passes] at accepted
    obtain ⟨notices, handled⟩ := Watcher.handle_edited_of_some accepted
    have collected : Path.relativeText parts ∈
        (watcher.gather [Path.relativeText parts]).pending := by
      rw [Watcher.gather, Watcher.mem_asSet, List.mem_append, Watcher.mem_asSet]
      exact Or.inr List.mem_cons_self
    have filled : ¬ (watcher.gather [Path.relativeText parts]).pending.isEmpty = true := by
      rw [List.isEmpty_iff]
      exact List.ne_nil_of_mem collected
    refine ⟨_, notices, handled, collected, rfl, _, ?_, collected⟩
    rw [Watcher.flush, if_neg filled]

end Watches

end Settings

namespace Session

variable {session : Session} {tree : FileTree} {reset : Bool} {given : NamedOptions}
variable {result : ScanResult}

/-- After a scan that succeeds, a scanned file is watched exactly if the filter of the
settings lets it pass; the edit of a file that is not watched leaves every watcher as it is.
All scanned files but the one that the scan starts from have passed the filter of the scan,
and if no option that is kept replaces a part of the filter, they are watched. -/
theorem scanned_watched_iff (session : Session) (tree : FileTree) (reset : Bool)
    (given : NamedOptions) (result : ScanResult)
    (succeeded : (session.runScan tree reset given).result = .ok result) :
    let after := (session.runScan tree reset given).session
    let settings := session.settings
    let scanned := result.graph.scanned
    after.result = some result ∧
    (∀ file ∈ scanned,
      (settings.Watches tree file ↔
        settings.filter.ignores file = false ∧ settings.filter.supports file = true) ∧
      (¬ settings.Watches tree file → ∀ watcher, settings.SetsUp tree watcher →
        watcher.handle (Watcher.edited (watcher.root.join file)) = .ok (watcher, []))) ∧
    ∃ options, after.overrides.Overrides (settings.scanOptions tree) options ∧
      (∀ file ∈ scanned, options.StartsFrom tree (settings.rootDir tree) file ∨
        options.filter.ignores file = false ∧ options.filter.supports file = true) ∧
      ((∀ option ∈ after.overrides, option.1 ∉ NamedOptions.filterNames) →
        ∀ file ∈ scanned, options.StartsFrom tree (settings.rootDir tree) file ∨
          settings.Watches tree file) := by
  intro after settings scanned
  have published : after = session.publish (session.optionsFor reset given) result :=
    runScan_of_ok succeeded
  obtain ⟨-, configured⟩ := runScan_eq_ok_iff.mp succeeded
  obtain ⟨options, applied, found⟩ := scanConfigured_eq_ok_iff.mp configured
  have watched : ∀ file ∈ scanned, settings.Watches tree file ↔
      settings.filter.ignores file = false ∧ settings.filter.supports file = true := by
    intro file member
    obtain ⟨parts, rfl, names⟩ := exists_parts_of_mem_scanned found member
    exact Settings.watches_iff names
  rw [published]
  refine ⟨rfl, fun file member => ⟨watched file member, ?_⟩, options, applied,
    fun file member => startsFrom_or_passes found member, fun others file member => ?_⟩
  · intro unwatched watcher ready
    obtain ⟨parts, rfl, names⟩ := exists_parts_of_mem_scanned found member
    exact Settings.handle_edited_of_not_passes names
      (fun passes => unwatched ((watched _ member).mpr passes)) ready
  · have same : options.filter = settings.filter := applied.filter_eq others
    rcases startsFrom_or_passes found member with start | passes
    · exact Or.inl start
    · rw [same] at passes
      exact Or.inr ((watched file member).mpr passes)

/-- A project of a script that is a source file by default and one that is not. -/
def scriptTree : FileTree where
  entries := [(["p"], .directory true true),
    (["p", "a.js"], .file [] true),
    (["p", "main.mjs"], .file [] true)]
  workingDir := ["p"]
  writable := true
  distinct := by decide
  named := by decide

/-- Settings for the scan of the project. -/
def scriptSettings : Settings := { Shared.rootSettings with scanPath := projectRoot }

/-- The options of a scan of the project from one of its files. -/
def scriptOptions (name : String) : ScanOptions :=
  { scriptSettings.scanOptions scriptTree with startFile := some name }

private theorem rootDir_scriptSettings : scriptSettings.rootDir scriptTree = projectRoot := by
  have directory : scriptTree.isRegular scriptSettings.scanPath.toString = false := by cbv
  unfold Settings.rootDir
  rw [directory, if_neg Bool.false_ne_true]
  rfl

private theorem absoluteRoot_scriptTree :
    Build.absoluteRoot scriptTree projectRoot = projectRoot := by
  decide +kernel

private theorem discover_scriptTree :
    (scriptTree.discover {} projectRoot).2 = .ok ["a.js"] := by
  cbv

private theorem child_scriptTree {name : String} (listed : name ∈ ["a.js", "main.mjs"]) :
    (scannedProject scriptTree projectRoot .strict).Child name (.file [] true) := by
  have known : ∀ name ∈ ["a.js", "main.mjs"],
      scriptTree.entry? ["p", name] = some (.file [] true) ∧
        (projectRoot.join name).toString.utf8ByteSize < pathLimit := by
    decide +kernel
  obtain ⟨present, short⟩ := known name listed
  unfold scannedProject
  rw [absoluteRoot_scriptTree]
  exact ⟨rfl, by decide, present, short⟩

/-- Each of the two scripts is scanned if a scan starts from it. -/
theorem exists_runScan_scriptTree {name : String} (listed : name ∈ ["a.js", "main.mjs"]) :
    ∃ result, ((create scriptSettings).runScan scriptTree false
        [("start_file", .str name)]).result = .ok result ∧
      name ∈ result.graph.scanned := by
  have child := child_scriptTree listed
  have nonempty : name ≠ "" := by
    rintro rfl
    exact absurd listed (by decide)
  have discovery : (scriptTree.discover (scriptOptions name).filter
      (scannedProject scriptTree projectRoot .strict).root).2 = .ok ["a.js"] := by
    unfold scannedProject
    rw [absoluteRoot_scriptTree]
    exact discover_scriptTree
  have within : (scriptOptions name).toRequest.limit.isExceededBy 0 = .ok false := rfl
  have ended := Build.failure_eq_none_of_startPoint? (DepthLimit.comparable_of_isExceededBy within)
    discovery rfl nonempty child.startPoint?
  have scanned := Build.mem_scanned_of_startPoint? within discovery rfl nonempty child.startPoint?
    ⟨_, child.readText rfl⟩
  obtain ⟨result, graph, found⟩ : ∃ result, result.graph =
      (Build.build (scannedProject scriptTree projectRoot .strict)
        (scriptOptions name).toRequest Store.empty).store.graph ∧
      (scan scriptTree projectRoot (scriptOptions name)).2 = .ok result :=
    ⟨_, rfl, scan_eq_ok_iff.mpr ⟨.strict, rfl, ended, rfl⟩⟩
  rw [← graph] at scanned
  rw [← rootDir_scriptSettings] at found
  have foreign : ∀ option ∈ [("start_file", Json.str name)], option.1 ∉ requestNames := by
    simp [requestNames]
  exact ⟨result, runScan_eq_ok_iff.mpr ⟨foreign, found⟩, scanned⟩

/-- A script with a common extension is watched, also if a scan starts from it. -/
theorem start_script_watched : ∃ result,
    ((create scriptSettings).runScan scriptTree false
      [("start_file", .str "a.js")]).result = .ok result ∧
    "a.js" ∈ result.graph.scanned ∧
    scriptSettings.Watches scriptTree "a.js" := by
  obtain ⟨result, succeeded, scanned⟩ := @exists_runScan_scriptTree "a.js" (by decide)
  obtain ⟨-, watched, -⟩ := scanned_watched_iff _ _ _ _ _ succeeded
  exact ⟨result, succeeded, scanned, (watched _ scanned).1.mpr (by decide +kernel)⟩

/-- A script with another extension is scanned if a scan starts from it, but a watcher that
the settings set up passes over an edit of it. -/
theorem start_script_passed_over :
    let watcher := Watcher.start (scriptSettings.rootDir scriptTree) scriptSettings.filter
    ∃ result,
      ((create scriptSettings).runScan scriptTree false
        [("start_file", .str "main.mjs")]).result = .ok result ∧
      "main.mjs" ∈ result.graph.scanned ∧
      watcher.handle (Watcher.edited (watcher.root.join "main.mjs")) = .ok (watcher, []) := by
  intro watcher
  obtain ⟨result, succeeded, scanned⟩ := @exists_runScan_scriptTree "main.mjs" (by decide)
  refine ⟨result, succeeded, scanned, Watcher.handle_edited_of_none ?_⟩
  unfold watcher
  rw [rootDir_scriptSettings]
  decide +kernel

end Session

end ModuleAtlas
