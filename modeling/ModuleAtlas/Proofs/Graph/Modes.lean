import Mathlib.Order.Bounds.Basic
import ModuleAtlas.Proofs.Graph.Transitive
import ModuleAtlas.Scan

/-! # The files of a deployment mode

The closure of some nodes is the least set that has them and whatever edges lead to from
its members (`ModuleAtlas.Graph.isLeast_closure`): it has these, and any such set has what
a worklist takes in. A mode has the closure of its entry points, and so the entry points
and everything that one of them depends on, directly or not.
-/

namespace ModuleAtlas.Graph

/-- A set of nodes that no edge leads out of, whether the edge is internal or external. -/
def IsClosed (graph : Graph) (nodes : Set String) : Prop :=
  ∀ edge ∈ graph.edges, edge.source ∈ nodes → edge.target ∈ nodes

/-- A scanned file whose path holds a keyword of a mode, in whatever case. -/
def IsEntryPoint (graph : Graph) (mode : DeploymentMode) (file : String) : Prop :=
  file ∈ graph.scanned ∧
    ∃ keyword ∈ mode.keywords, Text.contains (Text.lowerCase file) keyword = true

section Closure

variable {graph : Graph} {seeds : List String} {node : String}

/-- What a path leads to is in every closed set that has its start. -/
theorem IsClosed.mem_of_path {nodes : Set String} {start : String} (closed : graph.IsClosed nodes)
    (inside : start ∈ nodes) (path : Relation.ReflTransGen graph.DependsOn start node) :
    node ∈ nodes := by
  induction path with
  | refl => exact inside
  | tail _ depends ih =>
      obtain ⟨edge, recorded, rfl, rfl⟩ := depends
      exact closed edge recorded ih

private theorem isClosed_closure (inside : seeds ⊆ graph.nodes) :
    graph.IsClosed {node | node ∈ graph.closure seeds} := by
  intro edge recorded source
  obtain ⟨seed, listed, path⟩ := (mem_closure_iff inside).mp source
  apply (mem_closure_iff inside).mpr
  exact ⟨seed, listed, path.tail ⟨edge, recorded, rfl, rfl⟩⟩

/-- The closure of some nodes is the least closed set that has them. -/
theorem isLeast_closure (inside : seeds ⊆ graph.nodes) :
    IsLeast {nodes : Set String | (∀ seed ∈ seeds, seed ∈ nodes) ∧ graph.IsClosed nodes}
      {node | node ∈ graph.closure seeds} := by
  refine ⟨⟨fun seed listed => ?_, isClosed_closure inside⟩, ?_⟩
  · exact (mem_closure_iff inside).mpr ⟨seed, listed, .refl⟩
  · intro nodes ⟨has, closed⟩ node taken
    obtain ⟨seed, listed, path⟩ := (mem_closure_iff inside).mp taken
    exact closed.mem_of_path (has seed listed) path

/-- The closure of some nodes is these and what they depend on, directly or not. -/
theorem mem_closure_iff_transitive (inside : seeds ⊆ graph.nodes) :
    node ∈ graph.closure seeds ↔
      node ∈ seeds ∨ ∃ seed ∈ seeds, node ∈ graph.transitive seed := by
  rw [mem_closure_iff inside]
  simp only [mem_transitive_iff]
  constructor
  · intro ⟨seed, listed, path⟩
    rcases Relation.reflTransGen_iff_eq_or_transGen.mp path with rfl | path
    · exact Or.inl listed
    · exact Or.inr ⟨seed, listed, path⟩
  · intro either
    rcases either with listed | ⟨seed, listed, path⟩
    · exact ⟨node, listed, .refl⟩
    · exact ⟨seed, listed, path.to_reflTransGen⟩

end Closure

section Modes

variable {graph : Graph} {mode : DeploymentMode} {file : String}

private theorem mem_seeds_iff : file ∈ graph.seeds mode ↔ graph.IsEntryPoint mode file := by
  simp only [seeds, IsEntryPoint, DeploymentMode.claims, List.mem_filter, List.any_eq_true]

private theorem lookup_analyzeModes (graph : Graph) (mode : DeploymentMode) :
    graph.analyzeModes.lookup mode.name =
      some (Text.sortTexts (graph.closure (graph.seeds mode))) := by
  cases mode <;> rfl

end Modes

/-- An analysis gives every mode, under its name, the least set that has the entry points
of the mode and is closed under all recorded edges. In other words, a mode has its entry
points and what these depend on, directly or not. The order in which the entry points are
taken up does not matter, and the analysis leaves the graph as it is. -/
theorem analyzeModes_isLeast (graph : Graph) :
    graph.analyzeModes.map Prod.fst = DeploymentMode.all.map DeploymentMode.name ∧
    (∀ mode, ∃ files, graph.analyzeModes.lookup mode.name = some files ∧ files.Nodup ∧
      IsLeast {nodes : Set String |
        (∀ file, graph.IsEntryPoint mode file → file ∈ nodes) ∧ graph.IsClosed nodes}
        {node | node ∈ files} ∧
      (∀ node, node ∈ files ↔ graph.IsEntryPoint mode node ∨
        ∃ seed, graph.IsEntryPoint mode seed ∧ node ∈ graph.transitive seed) ∧
      ∀ order, order.Perm (graph.seeds mode) → Text.sortTexts (graph.closure order) = files) ∧
    ∀ root withModes, (Scan.analyze root withModes graph).2.graph = graph := by
  refine ⟨List.map_map, fun mode => ?_, fun root withModes => rfl⟩
  have inside := graph.seeds_subset mode
  have sorted := Text.sortTexts_perm (graph.closure (graph.seeds mode))
  refine ⟨_, graph.lookup_analyzeModes mode, ?_, ?_, fun node => ?_, fun order same => ?_⟩
  · exact sorted.nodup_iff.mpr (graph.nodup_closure _)
  · simpa only [sorted.mem_iff, mem_seeds_iff] using isLeast_closure inside
  · simpa only [sorted.mem_iff, mem_seeds_iff] using mem_closure_iff_transitive inside
  · exact sortTexts_closure_eq inside same

end ModuleAtlas.Graph
