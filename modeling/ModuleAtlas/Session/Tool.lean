import ModuleAtlas.FileTree.Change
import ModuleAtlas.Graph.Query
import ModuleAtlas.Session.Basic

/-! # Tools

The questions that can be put to a session and the values they are answered
with. Before the first scan has succeeded, those about its result are answered
with an error value.
-/

namespace ModuleAtlas.Session

/-- The answer while there is no result. -/
def notReady : Json :=
  .obj [("error", .str "No scan result available yet; check get_scan_status")]

/-- The answer about a result, if there is one. -/
def ofResult (session : Session) (answer : ScanResult → Json) : Json :=
  (session.result.map answer).getD notReady

/-- The value of the counts of a report. -/
def summaryValue (summary : Summary) : Json :=
  .obj [ ("total_files", .nat summary.totalFiles),
    ("internal_files", .nat summary.internalFiles),
    ("external_files", .nat summary.externalFiles),
    ("total_dependencies", .nat summary.totalDependencies),
    ("files_with_circular_dependencies", .nat summary.filesWithCircularDependencies),
    ("total_cycles", .nat summary.totalCycles) ]

/-- The value of one dependency of a file. -/
def dependencyValue (graph : Graph) (dependency : String × Bool) : Json :=
  .obj [ ("path", .str dependency.1),
    ("is_external", .bool dependency.2),
    ("is_scanned", .bool (graph.isScanned dependency.1)) ]

/-- The values of the dependencies of a file. -/
def dependencyValues (graph : Graph) (file : String) : List Json :=
  (graph.dependencies file).map (dependencyValue graph)

/-- The values of the files that depend on a node. -/
def dependentValues (graph : Graph) (node : String) : List Json :=
  (graph.dependents node).map fun dependent => .obj [("path", .str dependent.1)]

/-- The direct dependencies of a file. -/
def fileDependencies (session : Session) (file : String) : Json :=
  session.ofResult fun result =>
    let dependencies := dependencyValues result.graph file
    .obj [ ("file_path", .str file),
      ("scanned", .bool (result.graph.isScanned file)),
      ("dependencies", .arr dependencies),
      ("count", .nat dependencies.length) ]

/-- The files that import a file or module. -/
def fileDependents (session : Session) (file : String) : Json :=
  session.ofResult fun result =>
    let dependents := dependentValues result.graph file
    .obj [ ("file_path", .str file),
      ("dependents", .arr dependents),
      ("count", .nat dependents.length) ]

/-- Everything that a file depends on. -/
def transitiveDependencies (session : Session) (file : String) : Json :=
  session.ofResult fun result =>
    let dependencies := result.graph.transitive file
    .obj [ ("file_path", .str file),
      ("dependencies", .strs dependencies),
      ("count", .nat dependencies.length) ]

/-- The chains that lead from one file to another. -/
def paths (session : Session) (source target : String) (maxLength : Option Int) : Json :=
  session.ofResult fun result =>
    let paths := result.graph.findPaths source target maxLength
    .obj [ ("source", .str source),
      ("target", .str target),
      ("paths", .arr (paths.map Json.strs)),
      ("count", .nat paths.length) ]

/-- The start of a list up to a limit; a negative limit counts from the end. -/
def upTo {α : Type} (limit : Int) (items : List α) : List α :=
  items.take (if limit < 0 then ((items.length : Int) + limit).toNat else limit.toNat)

/-- The cycles of a result: those met by the scan, or all of them. -/
def cyclesOf (result : ScanResult) (exhaustive : Bool) : List (List String) :=
  if exhaustive then result.graph.cyclesWithin result.graph.nodes.length else result.cycles

/-- The cycles between project files. -/
def cycles (session : Session) (exhaustive : Bool) (limit : Int) : Json :=
  session.ofResult fun result =>
    let cycles := cyclesOf result exhaustive
    .obj [ ("exhaustive", .bool exhaustive),
      ("cycles", .arr ((upTo limit cycles).map Json.strs)),
      ("count", .nat cycles.length),
      ("truncated", .bool (decide (limit < cycles.length))) ]

/-- The value of the modes that are listed. -/
def modeValues (modes : ModeFiles) : Json :=
  .obj [("modes", .obj (modes.map fun mode =>
    (mode.1, .obj [("file_count", .nat mode.2.length), ("files", .strs mode.2)])))]

/-- The files of every deployment mode, or of one of them. Modes that the scan
did not analyse are analysed now. -/
def deploymentModes (session : Session) (mode : Option String) : List Notice × Json :=
  match session.result with
  | none => ([], notReady)
  | some result =>
      let modes := result.modes.getD result.graph.analyzeModes
      let notices := if result.modes.isSome then [] else Scan.modeNotices result.root modes
      match mode with
      | none => (notices, modeValues modes)
      | some name =>
          match modes.lookup name with
          | some files => (notices, modeValues [(name, files)])
          | none =>
              (notices, .obj [ ("error", .str ("Unknown mode: " ++ name)),
                ("modes", .strs (modes.map Prod.fst)) ])

/-- How the scan stands, what is configured, and the counts of the result. -/
def status (session : Session) (tree : FileTree) : Json :=
  let settings := session.settings
  let name :=
    if session.scanError.isSome then "error"
    else if session.result.isSome then "ready"
    else "scanning"
  .obj ([ ("status", .str name),
      ("phase", .str session.phase.name),
      ("scan_count", .nat session.scanCount),
      ("root_dir", .str (settings.rootDir tree).toString),
      ("start_file", ((settings.startFile tree).map .str).getD .null),
      ("extensions", .strs settings.filter.extensions),
      ("exclude_dirs", .strs settings.filter.excluded),
      ("max_depth", (settings.maxDepth.map .int).getD .null),
      ("external_edges", .str settings.externalEdges),
      ("overrides", .obj session.overrides),
      ("watcher_active", .bool session.watcherActive) ] ++
    Report.optionalField "error" (session.scanError.map .str) ++
    Report.optionalField "summary"
      (session.result.map fun result => summaryValue result.report.summary))

/-- Whether a depth is negative. -/
def isNegativeDepth : Json → Except Failure Bool
  | .int depth => .ok (decide (depth < 0))
  | .bool _ => .ok false
  | .real depth => .ok (decide (depth.toFloat < 0))
  | value => .error (.incomparable "<" value.kind "int")

/-- The option with a name, unless its value is missing. -/
def givenOption (name : String) : Json → NamedOptions
  | .null => []
  | value => [(name, value)]

/-- The options that a rescan was given. -/
def rescanOptions (startFile maxDepth analyzeModes : Json) : NamedOptions :=
  givenOption "start_file" startFile ++ givenOption "max_depth" maxDepth ++
    givenOption "analyze_modes" analyzeModes

/-- Scans anew, with options that stay in effect. A negative depth is refused
before anything happens. -/
def rescan (session : Session) (tree : FileTree) (startFile maxDepth analyzeModes : Json)
    (reset : Bool) : Outcome Json :=
  let negative : Except Failure Bool := match maxDepth with
    | .null => .ok false
    | depth => isNegativeDepth depth
  match negative with
  | .error failure => ⟨session, [], .error failure⟩
  | .ok true =>
      ⟨session, [], .ok (.obj [("error",
        .str ("max_depth must be non-negative, got " ++ maxDepth.shown))])⟩
  | .ok false =>
      let options := rescanOptions startFile maxDepth analyzeModes
      let outcome := session.runScan tree reset options
      let notice := Notice.rescanning (Json.obj options).display (Json.boolName reset)
      { session := outcome.session
        notices := notice :: outcome.notices
        result := outcome.result.map fun result =>
          .obj [ ("overrides", .obj outcome.session.overrides),
            ("summary", summaryValue result.report.summary) ] }

/-- Where a report goes: the given file below the root, or the configured one. -/
def reportPath (session : Session) (tree : FileTree) (outputFile : Option String) : Path :=
  match outputFile with
  | some file =>
      if file = "" then session.settings.outputPath tree
      else (session.settings.rootDir tree).join file
  | none => session.settings.outputPath tree

/-- The tree with a report written at a path, and with the directories above. -/
def saveReport (tree : FileTree) (path : Path) (report : Report) : FileTree.Changed :=
  match tree.ensureDirectories path.root path.parent.parts.reverse with
  | (prepared, none) =>
      prepared.orUnchanged
        (prepared.writeBytes path.toString (Text.Utf8.encode report.toText))
  | stopped => stopped

/-- The tree after an operation, what was reported, and the answer. -/
structure TreeOutcome where
  tree : FileTree
  notices : List Notice
  result : Except Failure Json

/-- Writes the report of the result. -/
def exportReport (session : Session) (tree : FileTree) (outputFile : Option String) :
    TreeOutcome :=
  match session.result with
  | none => ⟨tree, [], .ok notReady⟩
  | some result =>
      let path := session.reportPath tree outputFile
      match saveReport tree path result.report with
      | (changed, some failure) => ⟨changed, [], .error failure⟩
      | (changed, none) =>
          ⟨changed, [.reportSaved path.toString], .ok (.obj [
            ("output_path", .str path.toString),
            ("summary", summaryValue result.report.summary) ])⟩

/-- A request to a session: a scan with given options, the tool that scans anew, the first
scan, or the scan after files have changed. -/
inductive Request where
  | scan (reset : Bool) (given : NamedOptions)
  | rescan (startFile maxDepth analyzeModes : Json) (reset : Bool)
  | initial
  | filesChanged (changed : List String)

end ModuleAtlas.Session
