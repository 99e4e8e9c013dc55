import ModuleAtlas.Build
import ModuleAtlas.Graph.Cycles
import ModuleAtlas.Report

/-! # Scans

A scan builds the graph of a project, detects its cycles and, if asked to, finds
the files of every deployment mode.
-/

namespace ModuleAtlas

/-- What a scan is asked for. -/
structure ScanOptions where
  filter : SourceFilter := {}
  startFile : Option String := none
  limit : DepthLimit := .unlimited
  analyzeModes : Bool := false
  externalEdges : String := "strict"

/-- What a scan found. -/
structure ScanResult where
  root : Path
  graph : Graph
  cycles : List (List String)
  modes : Option ModeFiles

/-- The report of a scan. -/
def ScanResult.report (result : ScanResult) : Report :=
  Report.create result.graph result.cycles result.modes

namespace Scan

/-- The number of cycles that are reported one by one. -/
def listedCycles : Nat := 5

/-- What is reported while cycles are detected. -/
def cycleNotices (cycles : List (List String)) : List Notice :=
  cycles.map .cycleFound ++ [.cyclesDetected cycles.length]

/-- What is reported while modes are analysed. -/
def modeNotices (root : Path) (modes : ModeFiles) : List Notice :=
  (modes.map fun mode => .modeSize mode.1 mode.2.length) ++ [.modesAnalyzed root.toString]

/-- What is reported of the cycles of a scan. -/
def cycleListing (cycles : List (List String)) : List Notice :=
  if cycles.isEmpty then []
  else
    .cyclesListed ::
      ((cycles.take listedCycles).zipIdx 1).map (fun entry => .cycleListed entry.2 entry.1) ++
      if listedCycles < cycles.length then [.cyclesOmitted (cycles.length - listedCycles)] else []

/-- What is reported at the end of a scan. -/
def summaryNotices (result : ScanResult) : List Notice :=
  let summary := result.report.summary
  [ .totalFiles summary.totalFiles,
    .totalDependencies summary.totalDependencies,
    .circularFiles summary.filesWithCircularDependencies,
    .totalCycles summary.totalCycles ] ++ cycleListing result.cycles

/-- What is reported at the start of a scan. -/
def openingNotice (root : Path) (startFile : Option String) : Notice :=
  match startFile with
  | some start =>
      if start = "" then .scanningDirectory root.toString
      else .analyzingFile (root.join start).toString
  | none => .scanningDirectory root.toString

/-- What a scan makes of a graph, and what it reports. -/
def analyze (root : Path) (withModes : Bool) (graph : Graph) : List Notice × ScanResult :=
  let cycles := graph.detectCycles
  let modes := if withModes then some graph.analyzeModes else none
  let result : ScanResult := { root, graph, cycles, modes }
  let modePart := match modes with
    | some modes => .analyzingModes :: modeNotices root modes
    | none => []
  (.detectingCycles :: cycleNotices cycles ++ modePart ++ summaryNotices result, result)

end Scan

/-- Scans a project. -/
def scan (tree : FileTree) (root : Path) (options : ScanOptions) :
    List Notice × Except Failure ScanResult :=
  let opening := Scan.openingNotice root options.startFile
  match ExternalPolicy.ofName? options.externalEdges with
  | none => ([opening], .error (.unknownPolicy (Text.quoted options.externalEdges)))
  | some policy =>
      let project : Project := { tree, root := Build.absoluteRoot tree root, policy }
      let request : BuildRequest :=
        { filter := options.filter, startFile := options.startFile, limit := options.limit }
      let built := Build.build project request Store.empty
      match built.failure with
      | some failure => (opening :: built.notices, .error failure)
      | none =>
          let (notices, result) := Scan.analyze root options.analyzeModes built.store.graph
          (opening :: built.notices ++ notices, .ok result)

end ModuleAtlas
