import ModuleAtlas.Graph.Store

/-! # How a graph grows

The effect of the two changes of a graph on what is asked of it later: the
scanned files, the internal edges and the dependencies of one file. A file's
dependencies change only by an edge that leaves it, and of several edges to one
target the first is kept.
-/

namespace ModuleAtlas

/-- The entries of a list, of those with one target the first only. -/
def firstPerTarget : List (String × Bool) → List (String × Bool)
  | [] => []
  | entry :: entries => entry :: (firstPerTarget entries).filter fun other => other.1 ≠ entry.1

/-- Keeping the first entry of each target loses no target. -/
theorem mem_targets_firstPerTarget {entries : List (String × Bool)} {target : String} :
    target ∈ (firstPerTarget entries).map Prod.fst ↔ target ∈ entries.map Prod.fst := by
  induction entries with
  | nil => rfl
  | cons entry entries ih =>
      simp only [firstPerTarget, List.map_cons, List.mem_cons]
      by_cases same : target = entry.1
      · simp only [same, true_or]
      · rw [← ih]
        simp only [same, false_or, List.mem_map, List.mem_filter, decide_eq_true_eq]
        constructor
        · rintro ⟨other, ⟨member, -⟩, named⟩
          exact ⟨other, member, named⟩
        · rintro ⟨other, member, named⟩
          exact ⟨other, ⟨member, named.symm ▸ same⟩, named⟩

/-- The first entries of the targets are among the entries. -/
theorem mem_of_mem_firstPerTarget {entries : List (String × Bool)} {entry : String × Bool}
    (member : entry ∈ firstPerTarget entries) : entry ∈ entries := by
  induction entries with
  | nil => exact member
  | cons first entries ih =>
      rcases List.mem_cons.mp member with rfl | later
      · exact List.mem_cons_self
      · exact List.mem_cons_of_mem first (ih (List.mem_filter.mp later).1)

/-- Each target keeps one entry. -/
theorem eq_of_mem_firstPerTarget {entries : List (String × Bool)} {target : String}
    {first second : Bool} (one : (target, first) ∈ firstPerTarget entries)
    (other : (target, second) ∈ firstPerTarget entries) : first = second := by
  induction entries with
  | nil => cases one
  | cons entry entries ih =>
      simp only [firstPerTarget, List.mem_cons, List.mem_filter, decide_eq_true_eq] at one other
      rcases one with rfl | ⟨one, different⟩
      · rcases other with same | ⟨-, different⟩
        · exact (Prod.mk.inj same).2.symm
        · exact absurd rfl different
      · rcases other with rfl | ⟨other, -⟩
        · exact absurd rfl different
        · exact ih one other

/-- One more entry is kept if it is the first with its target. -/
theorem firstPerTarget_concat (entries : List (String × Bool)) (entry : String × Bool) :
    firstPerTarget (entries ++ [entry]) =
      if entry.1 ∈ entries.map Prod.fst then firstPerTarget entries
      else firstPerTarget entries ++ [entry] := by
  induction entries with
  | nil => rfl
  | cons first entries ih =>
      rw [List.cons_append, firstPerTarget, ih]
      by_cases same : entry.1 = first.1
      · have listed : entry.1 ∈ (first :: entries).map Prod.fst := by simp [same]
        rw [if_pos listed]
        split
        · rfl
        · rw [List.filter_append]
          simp [firstPerTarget, same]
      · by_cases listed : entry.1 ∈ entries.map Prod.fst
        · have later : entry.1 ∈ (first :: entries).map Prod.fst := List.mem_cons_of_mem _ listed
          rw [if_pos listed, if_pos later, firstPerTarget]
        · have unlisted : entry.1 ∉ (first :: entries).map Prod.fst := by
            rw [List.map_cons, List.mem_cons]
            exact fun either => either.elim same listed
          rw [if_neg listed, if_neg unlisted, List.filter_append]
          simp [firstPerTarget, same]

/-- The file that an operation marks as scanned. -/
def Operation.addedFile? : Operation → Option String
  | .addFile file => some file
  | .addDependency _ _ _ => none

namespace Graph

/-- Whether an internal edge leads from one node to another. -/
def HasInternalEdge (graph : Graph) (source target : String) : Prop :=
  ⟨source, target, false⟩ ∈ graph.edges

/-- A file added again keeps its place, a new one comes last. -/
theorem scanned_addFile (graph : Graph) (file : String) :
    (graph.addFile file).scanned =
      if file ∈ graph.scanned then graph.scanned else graph.scanned ++ [file] := by
  rw [toInventory_addFile]
  simp only [← graph.isScanned_iff]
  split <;> rfl

/-- Adding a file scans that file and no other. -/
theorem mem_scanned_addFile {graph : Graph} {file other : String} :
    other ∈ (graph.addFile file).scanned ↔ other ∈ graph.scanned ∨ other = file := by
  rw [scanned_addFile]
  exact mem_insertName

/-- A file added for the first time is scanned last. -/
theorem scanned_addFile_of_notMem {graph : Graph} {file : String}
    (unscanned : file ∉ graph.scanned) :
    (graph.addFile file).scanned = graph.scanned ++ [file] := by
  rw [scanned_addFile, if_neg unscanned]

/-- Adding a file adds no edge and loses none. -/
@[simp]
theorem edges_addFile (graph : Graph) (file : String) :
    (graph.addFile file).edges = graph.edges := by
  rw [toInventory_addFile]
  split <;> rfl

/-- Adding a dependency scans no file. -/
@[simp]
theorem scanned_addDependency (graph : Graph) (source target : String) (isExternal : Bool) :
    (graph.addDependency source target isExternal).scanned = graph.scanned := by
  rw [toInventory_addDependency]
  split
  · rfl
  · rw [Inventory.scanned_connect, Inventory.scanned_touch]

/-- A new edge stands behind all others; one whose ends are joined changes nothing. -/
theorem edges_addDependency (graph : Graph) (source target : String) (isExternal : Bool) :
    (graph.addDependency source target isExternal).edges =
      if graph.hasEdge source target then graph.edges
      else graph.edges ++ [⟨source, target, isExternal⟩] := by
  rw [toInventory_addDependency]
  split
  · rfl
  · rw [Inventory.edges_connect, Inventory.edges_touch]

/-- Adding a dependency loses no edge. -/
theorem mem_edges_addDependency_of_mem {graph : Graph} {edge : Edge} (member : edge ∈ graph.edges)
    (source target : String) (isExternal : Bool) :
    edge ∈ (graph.addDependency source target isExternal).edges := by
  rw [edges_addDependency]
  split
  · exact member
  · exact List.mem_append_left _ member

/-- The edges at a node as seen from there: the far end of each, and whether it is
external. -/
def seenFrom (graph : Graph) (near far : Edge → String) (node : String) : List (String × Bool) :=
  (graph.edges.filter fun edge => near edge = node).map fun edge => (far edge, edge.isExternal)

/-- The dependencies of a file are its edges seen from their source. -/
theorem dependencies_eq_seenFrom (graph : Graph) (file : String) :
    graph.dependencies file = graph.seenFrom Edge.source Edge.target file := rfl

/-- The dependents of a node are its edges seen from their target. -/
theorem dependents_eq_seenFrom (graph : Graph) (node : String) :
    graph.dependents node = graph.seenFrom Edge.target Edge.source node := rfl

end Graph

/-- One of the two ends of an edge, and the other. -/
def Edge.Opposite (near far : Edge → String) : Prop :=
  ∀ first second : Edge,
    first.ends = second.ends ↔ near first = near second ∧ far first = far second

/-- The target of an edge is opposite its source. -/
theorem Edge.opposite_source_target : Opposite source target := by
  intro first second
  simp only [Edge.ends, Prod.mk.injEq]

/-- The source of an edge is opposite its target. -/
theorem Edge.opposite_target_source : Opposite target source :=
  fun first second => (opposite_source_target first second).trans And.comm

namespace Graph

section Ends

variable {near far : Edge → String} {graph : Graph} {source target : String}

/-- Two nodes are joined if one is listed at the other. -/
theorem hasEdge_iff_mem_seenFrom (opposite : Edge.Opposite near far) (isExternal : Bool) :
    graph.hasEdge source target = true ↔
      far ⟨source, target, isExternal⟩ ∈
        (graph.seenFrom near far (near ⟨source, target, isExternal⟩)).map Prod.fst := by
  simp only [Inventory.hasEdge, decide_eq_true_eq, seenFrom, List.map_map, List.mem_map,
    List.mem_filter, Function.comp_apply]
  constructor
  · rintro ⟨edge, member, same⟩
    obtain ⟨sameNear, sameFar⟩ := (opposite edge ⟨source, target, isExternal⟩).mp same
    exact ⟨edge, ⟨member, sameNear⟩, sameFar⟩
  · rintro ⟨edge, ⟨member, sameNear⟩, sameFar⟩
    exact ⟨edge, member, (opposite edge ⟨source, target, isExternal⟩).mpr ⟨sameNear, sameFar⟩⟩

/-- An edge leaves the list at every node but its near end as it was. -/
theorem seenFrom_addDependency_of_ne {node : String} {isExternal : Bool}
    (different : near ⟨source, target, isExternal⟩ ≠ node) :
    (graph.addDependency source target isExternal).seenFrom near far node =
      graph.seenFrom near far node := by
  unfold seenFrom
  rw [edges_addDependency]
  split
  · rfl
  · rw [List.filter_append, List.filter_cons_of_neg (by simpa using different), List.filter_nil,
      List.append_nil]

/-- An edge stands at the end of the list at its near end, unless its far end is listed
there already. -/
theorem seenFrom_addDependency_self (opposite : Edge.Opposite near far) (isExternal : Bool) :
    (graph.addDependency source target isExternal).seenFrom near far
        (near ⟨source, target, isExternal⟩) =
      let listed := graph.seenFrom near far (near ⟨source, target, isExternal⟩)
      if far ⟨source, target, isExternal⟩ ∈ listed.map Prod.fst then listed
      else listed ++ [(far ⟨source, target, isExternal⟩, isExternal)] := by
  dsimp only
  by_cases joined : graph.hasEdge source target = true
  · rw [if_pos ((hasEdge_iff_mem_seenFrom opposite isExternal).mp joined)]
    unfold seenFrom
    rw [edges_addDependency, if_pos joined]
  · rw [if_neg fun listed => joined ((hasEdge_iff_mem_seenFrom opposite isExternal).mpr listed)]
    unfold seenFrom
    rw [edges_addDependency, if_neg joined, List.filter_append,
      List.filter_cons_of_pos (by simp), List.filter_nil, List.map_append, List.map_singleton]

end Ends

/-- Two nodes are joined if the second is listed as a dependency of the first. -/
theorem hasEdge_iff_mem_dependencies {graph : Graph} {source target : String} :
    graph.hasEdge source target = true ↔ target ∈ (graph.dependencies source).map Prod.fst :=
  hasEdge_iff_mem_seenFrom Edge.opposite_source_target false

/-- The edges of a graph are what its dependencies list, flags included. -/
theorem mem_edges_iff_mem_dependencies {graph : Graph} {source target : String}
    {isExternal : Bool} :
    ⟨source, target, isExternal⟩ ∈ graph.edges ↔
      (target, isExternal) ∈ graph.dependencies source := by
  simp only [dependencies, outEdges, List.mem_map, List.mem_filter, decide_eq_true_eq,
    Prod.mk.injEq]
  constructor
  · intro member
    exact ⟨_, ⟨member, rfl⟩, rfl, rfl⟩
  · rintro ⟨⟨_, _, _⟩, ⟨member, rfl⟩, rfl, rfl⟩
    exact member

/-- Internal edges are the dependencies not flagged as external. -/
theorem hasInternalEdge_iff_mem_dependencies {graph : Graph} {source target : String} :
    graph.HasInternalEdge source target ↔ (target, false) ∈ graph.dependencies source :=
  mem_edges_iff_mem_dependencies

/-- Adding a file changes the dependencies of none. -/
@[simp]
theorem dependencies_addFile (graph : Graph) (file other : String) :
    (graph.addFile file).dependencies other = graph.dependencies other := by
  unfold dependencies outEdges
  rw [edges_addFile]

/-- An edge leaves the dependencies of every other file as they were. -/
theorem dependencies_addDependency_of_ne {graph : Graph} {source other : String}
    (different : other ≠ source) (target : String) (isExternal : Bool) :
    (graph.addDependency source target isExternal).dependencies other =
      graph.dependencies other :=
  seenFrom_addDependency_of_ne different.symm

/-- An edge stands behind the other dependencies of its source unless its target
is listed there already. -/
theorem dependencies_addDependency_self (graph : Graph) (source target : String)
    (isExternal : Bool) :
    (graph.addDependency source target isExternal).dependencies source =
      if target ∈ (graph.dependencies source).map Prod.fst then graph.dependencies source
      else graph.dependencies source ++ [(target, isExternal)] :=
  seenFrom_addDependency_self Edge.opposite_source_target isExternal

private theorem mem_nodes_addFile {graph : Graph} {file node : String} :
    node ∈ (graph.addFile file).nodes ↔ node ∈ graph.nodes ∨ node = file := by
  rw [toInventory_addFile]
  split
  · next known =>
      have listed := graph.scanned_nodes file ((graph.isScanned_iff file).mp known)
      exact ⟨Or.inl, fun either => either.elim id fun same => same ▸ listed⟩
  · change node ∈ (graph.flag file true).nodes ↔ _
    rw [Inventory.nodes_flag, mem_insertName]

/-- Every node was scanned or is an end of an edge. -/
def IsSpanned (graph : Graph) : Prop :=
  ∀ node ∈ graph.nodes, node ∈ graph.scanned ∨
    ∃ edge ∈ graph.edges, node = edge.source ∨ node = edge.target

/-- The empty graph has no node to span. -/
theorem isSpanned_empty : empty.IsSpanned := by
  intro node member
  cases member

/-- A file added is scanned, so the graph stays spanned. -/
theorem IsSpanned.addFile {graph : Graph} (spanned : graph.IsSpanned) (file : String) :
    (graph.addFile file).IsSpanned := by
  intro node member
  rw [mem_scanned_addFile, edges_addFile]
  rcases mem_nodes_addFile.mp member with old | new
  · exact (spanned node old).imp_left Or.inl
  · exact Or.inl (Or.inr new)

/-- The ends of a dependency added have an edge, so the graph stays spanned. -/
theorem IsSpanned.addDependency {graph : Graph} (spanned : graph.IsSpanned)
    (source target : String) (isExternal : Bool) :
    (graph.addDependency source target isExternal).IsSpanned := by
  intro node member
  rw [scanned_addDependency]
  have old : node ∈ graph.nodes → node ∈ graph.scanned ∨
      ∃ edge ∈ (graph.addDependency source target isExternal).edges,
        node = edge.source ∨ node = edge.target := by
    intro listed
    refine (spanned node listed).imp_right fun ⟨edge, present, isEnd⟩ => ⟨edge, ?_, isEnd⟩
    exact mem_edges_addDependency_of_mem present source target isExternal
  cases joined : graph.hasEdge source target with
  | true =>
      rw [toInventory_addDependency, if_pos joined] at member
      exact old member
  | false =>
      have apart : ¬ graph.hasEdge source target = true := ne_true_of_eq_false joined
      have new : ⟨source, target, isExternal⟩ ∈
          (graph.addDependency source target isExternal).edges := by
        rw [edges_addDependency, if_neg apart]
        exact List.mem_append_right _ (List.mem_singleton_self _)
      rw [toInventory_addDependency, if_neg apart, Inventory.nodes_connect,
        Inventory.nodes_touch] at member
      simp only [mem_insertName] at member
      rcases member with ((listed | isTarget) | isSource) | isTarget
      · exact old listed
      · exact Or.inr ⟨_, new, Or.inr isTarget⟩
      · exact Or.inr ⟨_, new, Or.inl isSource⟩
      · exact Or.inr ⟨_, new, Or.inr isTarget⟩

/-- A file from which no edge leads has no dependencies. -/
theorem dependencies_eq_nil {graph : Graph} {file : String}
    (none : ∀ edge ∈ graph.edges, edge.source ≠ file) : graph.dependencies file = [] := by
  unfold dependencies outEdges
  rw [List.filter_eq_nil_iff.mpr fun edge member => by simpa using none edge member]
  rfl

end Graph

end ModuleAtlas
