import ModuleAtlas.Graph.Basic
import ModuleAtlas.Text.Case

/-! # Deployment modes

A scanned file belongs to a mode if its path holds one of the mode's keywords;
so does everything that such a file depends on, inside the project or not.
-/

namespace ModuleAtlas

/-- An environment that files are used in. -/
inductive DeploymentMode where
  | development
  | testing
  | staging
  | production
  deriving DecidableEq, Repr

namespace DeploymentMode

/-- All modes, in the order in which they are listed. -/
def all : List DeploymentMode := [.development, .testing, .staging, .production]

/-- The name of a mode. -/
def name : DeploymentMode → String
  | .development => "development"
  | .testing => "testing"
  | .staging => "staging"
  | .production => "production"

/-- The texts that mark a path as an entry point of a mode. -/
def keywords : DeploymentMode → List String
  | .development => ["dev", "development", "local"]
  | .testing => ["test", "testing"]
  | .staging => ["stage", "staging"]
  | .production => ["prod", "production"]

/-- Whether a path is an entry point of a mode. -/
def claims (mode : DeploymentMode) (path : String) : Bool :=
  mode.keywords.any (Text.contains (Text.lowerCase path))

end DeploymentMode

/-- The files and modules of each mode, by name; each list is sorted. -/
abbrev ModeFiles := List (String × List String)

/-- Modes from lists of files, each list sorted and without repetition. -/
def ModeFiles.ofLists (lists : List (String × List String)) : ModeFiles :=
  lists.map fun mode => (mode.1, Text.sortTexts mode.2.eraseDups)

namespace Graph

/-- The scanned files that are entry points of a mode. -/
def seeds (graph : Graph) (mode : DeploymentMode) : List String :=
  graph.scanned.filter mode.claims

/-- Takes in the nodes on a worklist and all that they lead to. `unvisited` are
the nodes not taken in so far; the result holds those that are. -/
def takeIn (graph : Graph) (unvisited : List String) : List String → List String
  | [] => []
  | current :: pending =>
      if current ∈ unvisited then
        current :: graph.takeIn (unvisited.erase current) (graph.successors current ++ pending)
      else graph.takeIn unvisited pending
termination_by pending => (unvisited.length, pending.length)
decreasing_by
  · next inside =>
      apply Prod.Lex.left
      rw [List.length_erase_of_mem inside]
      exact Nat.sub_lt (List.length_pos_of_mem inside) Nat.one_pos
  · exact Prod.Lex.right _ (by simp)

/-- The nodes that a list of nodes leads to, themselves included. -/
def closure (graph : Graph) (seeds : List String) : List String := graph.takeIn graph.nodes seeds

/-- The entry points of every mode. -/
def seedModes (graph : Graph) : ModeFiles :=
  DeploymentMode.all.map fun mode => (mode.name, Text.sortTexts (graph.seeds mode))

/-- The files and modules used in every mode. -/
def analyzeModes (graph : Graph) : ModeFiles :=
  DeploymentMode.all.map fun mode =>
    (mode.name, Text.sortTexts (graph.closure (graph.seeds mode)))

end Graph

end ModuleAtlas
