import ModuleAtlas.Build
import ModuleAtlas.Build.Traversal
import ModuleAtlas.Build.Verdict
import ModuleAtlas.DepthLimit
import ModuleAtlas.Discovery
import ModuleAtlas.Failure
import ModuleAtlas.FileTree.Basic
import ModuleAtlas.FileTree.Change
import ModuleAtlas.FileTree.Fault
import ModuleAtlas.FileTree.Probe
import ModuleAtlas.FileTree.Walk
import ModuleAtlas.Graph.Basic
import ModuleAtlas.Graph.Cycles
import ModuleAtlas.Graph.Modes
import ModuleAtlas.Graph.Query
import ModuleAtlas.Graph.Store
import ModuleAtlas.Json.Basic
import ModuleAtlas.Json.Display
import ModuleAtlas.Json.Printer
import ModuleAtlas.Json.Reader
import ModuleAtlas.Notice
import ModuleAtlas.Number.Shortest
import ModuleAtlas.Path
import ModuleAtlas.Proofs.Graph.Edges
import ModuleAtlas.Proofs.Path.Parts
import ModuleAtlas.Reference.Extract
import ModuleAtlas.Reference.File
import ModuleAtlas.Reference.Form
import ModuleAtlas.Report
import ModuleAtlas.Resolution
import ModuleAtlas.Scan
import ModuleAtlas.Session.Basic
import ModuleAtlas.Session.Options
import ModuleAtlas.Session.Tool
import ModuleAtlas.Settings.Basic
import ModuleAtlas.Settings.Conversion
import ModuleAtlas.Settings.EnvFile
import ModuleAtlas.Settings.Problem
import ModuleAtlas.SourceFilter
import ModuleAtlas.Text.Blank
import ModuleAtlas.Text.Boundaries
import ModuleAtlas.Text.Case
import ModuleAtlas.Text.Newline
import ModuleAtlas.Text.Quoted
import ModuleAtlas.Text.Search
import ModuleAtlas.Text.Unprintable
import ModuleAtlas.Text.Utf8
import ModuleAtlas.Text.Word
import ModuleAtlas.Watch
import ModuleAtlas.Proofs.Build.Effects
import ModuleAtlas.Proofs.Build.Steps
import ModuleAtlas.Proofs.Build.Descent
import ModuleAtlas.Proofs.Build.Coverage
import ModuleAtlas.Proofs.Build.Dependencies
import ModuleAtlas.Proofs.Graph.Cycles
import ModuleAtlas.Proofs.Graph.History
import ModuleAtlas.Proofs.Build.Completion
import ModuleAtlas.Proofs.Discovery
import ModuleAtlas.Proofs.FileTree.Reach
import ModuleAtlas.Proofs.Build.Targets
import ModuleAtlas.Proofs.Build.Depth
import ModuleAtlas.Proofs.Build.Policy
import ModuleAtlas.Proofs.Build.Identifiers
import ModuleAtlas.Proofs.Session.Requests
import ModuleAtlas.Proofs.Session.Interleaving
import ModuleAtlas.Proofs.Watch.Batches
import ModuleAtlas.Proofs.Watch.Coverage
import ModuleAtlas.Proofs.Discovery.Reached
import ModuleAtlas.Proofs.Discovery.Exact
import ModuleAtlas.Proofs.Session.Responses
import ModuleAtlas.Proofs.Graph.Closure
import ModuleAtlas.Proofs.Report.Consistency
import ModuleAtlas.Proofs.Graph.BackEdges
import ModuleAtlas.Proofs.Build.Cycles
import ModuleAtlas.Proofs.FileTree.Relisting
import ModuleAtlas.Proofs.Scan.Listing
import ModuleAtlas.Proofs.Scan.Outcome
import ModuleAtlas.Proofs.Json.Grammar
import ModuleAtlas.Proofs.Json.Reading
import ModuleAtlas.Proofs.Report.Text
import ModuleAtlas.Proofs.Graph.Forest
import ModuleAtlas.Proofs.Report.Circular
import ModuleAtlas.Proofs.Build.Distance
import ModuleAtlas.Proofs.Build.Limits
import ModuleAtlas.Proofs.Build.Unreadable
import ModuleAtlas.Proofs.Graph.Modes
import ModuleAtlas.Proofs.Reference.Calls
import ModuleAtlas.Proofs.Reference.Programs
import ModuleAtlas.Proofs.Graph.Routes
import ModuleAtlas.Proofs.Graph.Neighbours
import ModuleAtlas.Proofs.Path.Reduction
import ModuleAtlas.Proofs.Resolution
import ModuleAtlas.Proofs.Build.Turns
import ModuleAtlas.Proofs.Build.Openings
