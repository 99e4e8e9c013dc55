import ModuleAtlas.Graph.Basic
import ModuleAtlas.Graph.Modes
import ModuleAtlas.Json.Printer

/-! # Dependency reports

A report lists every node of a graph with its dependencies, the cycles, the
counts over both and, if they were analysed, the deployment modes.
-/

namespace ModuleAtlas

/-- What a report says of one file or module. -/
structure NodeReport where
  id : String
  isExternal : Bool
  dependencies : List (String × Bool)
  hasCircularDependency : Bool
  deploymentModes : Option (List String)
  deriving DecidableEq, Repr

/-- The counts of a report. -/
structure Summary where
  totalFiles : Nat
  internalFiles : Nat
  externalFiles : Nat
  totalDependencies : Nat
  filesWithCircularDependencies : Nat
  totalCycles : Nat
  deriving DecidableEq, Repr

/-- What a report says of one deployment mode. -/
structure ModeSummary where
  fileCount : Nat
  files : List String
  deriving DecidableEq, Repr

/-- The outcome of a scan as it is handed on. -/
structure Report where
  nodes : List NodeReport
  cycles : List (List String)
  summary : Summary
  deploymentModes : Option (List (String × ModeSummary))
  deriving DecidableEq, Repr

namespace Report

/-- The report on a graph with the given cycles and modes. -/
def create (graph : Graph) (cycles : List (List String)) (modes : Option ModeFiles) : Report :=
  let circular := cycles.flatten.eraseDups
  let nodes := graph.allNodes.map fun id =>
    { id
      isExternal := graph.isExternalNode id
      dependencies := graph.dependencies id
      hasCircularDependency := decide (id ∈ circular)
      deploymentModes := modes.map fun modes =>
        (modes.filter fun mode => id ∈ mode.2).map Prod.fst : NodeReport }
  let external := nodes.countP (·.isExternal)
  { nodes
    cycles
    summary :=
      { totalFiles := nodes.length
        internalFiles := nodes.length - external
        externalFiles := external
        totalDependencies := graph.edges.length
        filesWithCircularDependencies := circular.length
        totalCycles := cycles.length }
    deploymentModes := modes.map fun modes =>
      modes.map fun mode => (mode.1, ⟨mode.2.length, mode.2⟩) }

/-- The report's value for one dependency. -/
def dependencyJson (dependency : String × Bool) : Json :=
  .obj [("path", .str dependency.1), ("isExternal", .bool dependency.2)]

/-- The field of an optional value: left out if there is none. -/
def optionalField (name : String) : Option Json → List (String × Json)
  | none => []
  | some value => [(name, value)]

/-- The report's value for one node. -/
def nodeJson (node : NodeReport) : Json :=
  .obj ([ ("id", .str node.id),
      ("isExternal", .bool node.isExternal),
      ("dependencies", .arr (node.dependencies.map dependencyJson)),
      ("hasCircularDependency", .bool node.hasCircularDependency) ] ++
    optionalField "deploymentModes" (node.deploymentModes.map Json.strs))

/-- The report's value for its counts. -/
def summaryJson (summary : Summary) : Json :=
  .obj [ ("totalFiles", .nat summary.totalFiles),
    ("internalFiles", .nat summary.internalFiles),
    ("externalFiles", .nat summary.externalFiles),
    ("totalDependencies", .nat summary.totalDependencies),
    ("filesWithCircularDependencies", .nat summary.filesWithCircularDependencies),
    ("totalCycles", .nat summary.totalCycles) ]

/-- The report's value for one mode. -/
def modeJson (mode : ModeSummary) : Json :=
  .obj [("fileCount", .nat mode.fileCount), ("files", .strs mode.files)]

/-- The report's value for its modes. -/
def modesJson (modes : List (String × ModeSummary)) : Json :=
  .obj (modes.map fun mode => (mode.1, modeJson mode.2))

/-- The value of a report. -/
def toJson (report : Report) : Json :=
  .obj ([ ("nodes", .arr (report.nodes.map nodeJson)),
      ("cycles", .arr (report.cycles.map Json.strs)),
      ("summary", summaryJson report.summary) ] ++
    optionalField "deploymentModes" (report.deploymentModes.map modesJson))

/-- The text of a report. -/
def toText (report : Report) : String := report.toJson.pretty

end Report

end ModuleAtlas
