import ModuleAtlas.Table
import ModuleAtlas.Text.Search

/-! # Dependency graphs

The nodes of a dependency graph are the scanned files and everything that they
import. Nodes and edges are kept in the order of their insertion; two nodes are
joined by at most one edge, the first that was inserted.
-/

namespace ModuleAtlas

/-- A dependency of one file on a file or module. -/
structure Edge where
  source : String
  target : String
  isExternal : Bool
  deriving DecidableEq, Repr

/-- The ends of an edge. -/
def Edge.ends (edge : Edge) : String × String := (edge.source, edge.target)

/-- What is kept of a graph: the scanned files in scan order, a table of the nodes that
says of each whether it was scanned, and the edges, all in the order of their insertion. -/
structure Inventory where
  scanned : List String
  table : Table Bool
  edges : List Edge

namespace Inventory

/-- The nodes in the order of their insertion. -/
def nodes (inventory : Inventory) : List String := inventory.table.names

/-- Whether a file or module appears in the graph. -/
def hasNode (inventory : Inventory) (node : String) : Bool := decide (node ∈ inventory.nodes)

/-- Whether the imports of a file were extracted, as its node tells. -/
def isScanned (inventory : Inventory) (file : String) : Bool :=
  inventory.hasNode file && (inventory.table.lookup file).getD false

/-- Whether two nodes are joined by an edge. -/
def hasEdge (inventory : Inventory) (source target : String) : Bool :=
  decide ((source, target) ∈ inventory.edges.map Edge.ends)

/-- The inventory with a node that tells whether it was scanned. -/
def flag (inventory : Inventory) (node : String) (isScanned : Bool) : Inventory :=
  { inventory with table := inventory.table.set node isScanned }

/-- The inventory with a file at the end of the scanned files. -/
def enlist (inventory : Inventory) (file : String) : Inventory :=
  { inventory with scanned := inventory.scanned ++ [file] }

/-- The inventory with a node, which was not scanned unless it was there already. -/
def touch (inventory : Inventory) (node : String) : Inventory :=
  if inventory.hasNode node then inventory else inventory.flag node false

/-- The inventory with a new edge. Its ends become nodes, the source first. -/
def connect (inventory : Inventory) (edge : Edge) : Inventory :=
  let touched := (inventory.touch edge.source).touch edge.target
  { touched with edges := touched.edges ++ [edge] }

section Lemmas

variable (inventory : Inventory) (node file : String) (edge : Edge)

private theorem isScanned_eq :
    inventory.isScanned file = (inventory.table.lookup file).getD false := by
  unfold isScanned hasNode nodes
  by_cases known : file ∈ inventory.table.names
  · rw [decide_eq_true known, Bool.true_and]
  · have missing : inventory.table.lookup file = none := by
      rw [← Option.not_isSome_iff_eq_none]
      exact fun found => known (Table.mem_names_iff.mpr found)
    rw [missing, Option.getD_none, Bool.and_false]

/-- A node that is flagged is one, in the place at which it came first. -/
@[simp]
theorem nodes_flag (isScanned : Bool) :
    (inventory.flag node isScanned).nodes = insertName inventory.nodes node :=
  Table.names_set inventory.table node isScanned

private theorem isScanned_flag (isScanned : Bool) : (inventory.flag node isScanned).isScanned file =
    if file = node then isScanned else inventory.isScanned file := by
  rw [isScanned_eq, isScanned_eq, flag, Table.lookup_set]
  split <;> rfl

/-- Touching a node lists no file. -/
@[simp]
theorem scanned_touch : (inventory.touch node).scanned = inventory.scanned := by
  unfold touch
  split <;> rfl

/-- Touching a node adds no edge. -/
@[simp]
theorem edges_touch : (inventory.touch node).edges = inventory.edges := by
  unfold touch
  split <;> rfl

/-- A node that is touched is one, in the place at which it came first. -/
@[simp]
theorem nodes_touch : (inventory.touch node).nodes = insertName inventory.nodes node := by
  unfold touch
  by_cases known : node ∈ inventory.nodes
  · rw [hasNode, decide_eq_true known, if_pos rfl, insertName_of_mem known]
  · rw [hasNode, decide_eq_false known, if_neg Bool.false_ne_true, nodes_flag]

/-- A node that is touched is flagged as before. -/
@[simp]
theorem isScanned_touch : (inventory.touch node).isScanned file = inventory.isScanned file := by
  unfold touch
  cases known : inventory.hasNode node with
  | true => rfl
  | false =>
      rw [if_neg Bool.false_ne_true, isScanned_flag]
      split
      · next same => rw [same, isScanned, known, Bool.false_and]
      · rfl

/-- An edge lists no file. -/
@[simp]
theorem scanned_connect : (inventory.connect edge).scanned = inventory.scanned := by
  simp only [connect, scanned_touch]

/-- The newest edge is the last. -/
@[simp]
theorem edges_connect : (inventory.connect edge).edges = inventory.edges ++ [edge] := by
  simp only [connect, edges_touch]

/-- Both ends of a new edge become nodes, the source first. -/
theorem nodes_connect : (inventory.connect edge).nodes =
    insertName (insertName inventory.nodes edge.source) edge.target := by
  rw [← nodes_touch, ← nodes_touch]
  rfl

/-- An edge flags no node as scanned. -/
@[simp]
theorem isScanned_connect :
    (inventory.connect edge).isScanned file = inventory.isScanned file := by
  change ((inventory.touch edge.source).touch edge.target).isScanned file = _
  rw [isScanned_touch, isScanned_touch]

private theorem hasEdge_eq_false_iff {source target : String} :
    inventory.hasEdge source target = false ↔
      (source, target) ∉ inventory.edges.map Edge.ends := decide_eq_false_iff_not

end Lemmas

/-- The parts of an inventory agree: no file is listed twice, no node has two rows, the
nodes that are flagged as scanned are the files that are listed, every edge joins two nodes,
and no two edges have the same ends. -/
structure InStep (inventory : Inventory) : Prop where
  scanned_nodup : inventory.scanned.Nodup
  nodes_nodup : inventory.nodes.Nodup
  isScanned_iff : ∀ file, inventory.isScanned file = true ↔ file ∈ inventory.scanned
  edges_nodes : ∀ edge ∈ inventory.edges,
    edge.source ∈ inventory.nodes ∧ edge.target ∈ inventory.nodes
  edges_distinct : (inventory.edges.map Edge.ends).Nodup

namespace InStep

variable {inventory : Inventory}

/-- A file that was not scanned is flagged and listed. -/
theorem flag_enlist (inStep : inventory.InStep) {file : String}
    (unscanned : inventory.isScanned file = false) :
    ((inventory.flag file true).enlist file).InStep where
  scanned_nodup := by
    apply nodup_concat inStep.scanned_nodup
    rw [← inStep.isScanned_iff, unscanned]
    exact Bool.false_ne_true
  nodes_nodup := by
    change ((inventory.flag file true).nodes).Nodup
    rw [nodes_flag]
    exact nodup_insertName inStep.nodes_nodup file
  isScanned_iff other := by
    change (inventory.flag file true).isScanned other = true ↔ other ∈ inventory.scanned ++ [file]
    rw [isScanned_flag, List.mem_append, List.mem_singleton, ← inStep.isScanned_iff]
    by_cases same : other = file <;> simp [same]
  edges_nodes edge recorded := by
    have ends := inStep.edges_nodes edge recorded
    change edge.source ∈ (inventory.flag file true).nodes ∧
      edge.target ∈ (inventory.flag file true).nodes
    rw [nodes_flag, mem_insertName, mem_insertName]
    exact ⟨Or.inl ends.1, Or.inl ends.2⟩
  edges_distinct := inStep.edges_distinct

/-- A node more keeps the parts of an inventory in step. -/
theorem touch (inStep : inventory.InStep) (node : String) : (inventory.touch node).InStep where
  scanned_nodup := by
    rw [scanned_touch]
    exact inStep.scanned_nodup
  nodes_nodup := by
    rw [nodes_touch]
    exact nodup_insertName inStep.nodes_nodup node
  isScanned_iff file := by
    rw [isScanned_touch, scanned_touch]
    exact inStep.isScanned_iff file
  edges_nodes edge recorded := by
    rw [edges_touch] at recorded
    have ends := inStep.edges_nodes edge recorded
    rw [nodes_touch, mem_insertName, mem_insertName]
    exact ⟨Or.inl ends.1, Or.inl ends.2⟩
  edges_distinct := by
    rw [edges_touch]
    exact inStep.edges_distinct

/-- An edge is recorded between nodes that are not joined. -/
theorem connect (inStep : inventory.InStep) {edge : Edge}
    (apart : inventory.hasEdge edge.source edge.target = false) :
    (inventory.connect edge).InStep where
  scanned_nodup := by
    rw [scanned_connect]
    exact inStep.scanned_nodup
  nodes_nodup := ((inStep.touch edge.source).touch edge.target).nodes_nodup
  isScanned_iff file := by
    rw [isScanned_connect, scanned_connect]
    exact inStep.isScanned_iff file
  edges_nodes other recorded := by
    rw [edges_connect] at recorded
    simp only [nodes_connect, mem_insertName]
    rcases List.mem_append.mp recorded with old | new
    · have ends := inStep.edges_nodes other old
      exact ⟨Or.inl (Or.inl ends.1), Or.inl (Or.inl ends.2)⟩
    · rw [List.mem_singleton.mp new]
      exact ⟨Or.inl (Or.inr rfl), Or.inr rfl⟩
  edges_distinct := by
    rw [edges_connect, List.map_append, List.nodup_append]
    refine ⟨inStep.edges_distinct, by simp, fun first member second last => ?_⟩
    rw [List.map_singleton, List.mem_singleton] at last
    rintro rfl
    rw [last] at member
    exact (inventory.hasEdge_eq_false_iff.mp apart) member

end InStep

end Inventory

/-- A dependency graph: an inventory whose parts agree. -/
structure Graph extends Inventory where
  inStep : toInventory.InStep

namespace Graph

/-- The graph without nodes. -/
def empty : Graph where
  scanned := []
  table := []
  edges := []
  inStep := ⟨by simp, by decide, by simp [Inventory.isScanned], by simp, by simp⟩

/-- A graph is its inventory. -/
theorem eq_of_toInventory {left right : Graph} (same : left.toInventory = right.toInventory) :
    left = right := by
  cases left
  cases right
  cases same
  rfl

/-- No file is listed as scanned twice. -/
theorem scanned_nodup (graph : Graph) : graph.scanned.Nodup := graph.inStep.scanned_nodup

/-- No node has two rows. -/
theorem nodes_nodup (graph : Graph) : graph.nodes.Nodup := graph.inStep.nodes_nodup

/-- The files that are flagged as scanned are those that are listed. -/
theorem isScanned_iff (graph : Graph) (file : String) :
    graph.isScanned file = true ↔ file ∈ graph.scanned := graph.inStep.isScanned_iff file

/-- Scanned files are nodes. -/
theorem scanned_nodes (graph : Graph) (file : String) (scanned : file ∈ graph.scanned) :
    file ∈ graph.nodes := by
  rw [← isScanned_iff, Inventory.isScanned, Bool.and_eq_true] at scanned
  exact of_decide_eq_true scanned.1

/-- An edge joins two nodes. -/
theorem edges_nodes (graph : Graph) (edge : Edge) (recorded : edge ∈ graph.edges) :
    edge.source ∈ graph.nodes ∧ edge.target ∈ graph.nodes := graph.inStep.edges_nodes edge recorded

/-- No two edges have the same ends. -/
theorem edges_distinct (graph : Graph) : (graph.edges.map Edge.ends).Nodup :=
  graph.inStep.edges_distinct

/-- The edges that leave a node. -/
def outEdges (graph : Graph) (node : String) : List Edge :=
  graph.edges.filter fun edge => edge.source = node

/-- The edges that enter a node. -/
def inEdges (graph : Graph) (node : String) : List Edge :=
  graph.edges.filter fun edge => edge.target = node

/-- The dependencies of a file and whether each is external. -/
def dependencies (graph : Graph) (file : String) : List (String × Bool) :=
  (graph.outEdges file).map fun edge => (edge.target, edge.isExternal)

/-- The files that depend on a node and whether each does so externally. -/
def dependents (graph : Graph) (node : String) : List (String × Bool) :=
  (graph.inEdges node).map fun edge => (edge.source, edge.isExternal)

/-- The targets of the edges that leave a node. -/
def successors (graph : Graph) (node : String) : List String :=
  (graph.outEdges node).map Edge.target

/-- The targets of edges are nodes. -/
theorem mem_nodes_of_mem_successors (graph : Graph) {node next : String}
    (successor : next ∈ graph.successors node) : next ∈ graph.nodes := by
  obtain ⟨edge, leaves, rfl⟩ := List.mem_map.mp successor
  exact (graph.edges_nodes edge (List.mem_filter.mp leaves).1).2

/-- The distinct characters of a text, each as a text of its own. -/
def letters (id : String) : List String :=
  (id.toList.map fun c => String.ofList [c]).eraseDups

/-- The nodes that an identifier selects: itself if it is a node, and otherwise
those of its characters that are nodes. -/
def selected (graph : Graph) (id : String) : List String :=
  if graph.hasNode id then [id] else (letters id).filter graph.hasNode

/-- The internal dependencies of the nodes that an identifier selects. -/
def internalSuccessors (graph : Graph) (id : String) : List String :=
  (graph.selected id).flatMap fun node =>
    ((graph.outEdges node).filter (!·.isExternal)).map Edge.target

/-- The targets of internal edges are nodes, whatever an identifier selects. -/
theorem mem_nodes_of_mem_internalSuccessors (graph : Graph) {node child : String}
    (successor : child ∈ graph.internalSuccessors node) : child ∈ graph.nodes := by
  obtain ⟨start, -, member⟩ := List.mem_flatMap.mp successor
  obtain ⟨edge, internal, rfl⟩ := List.mem_map.mp member
  have recorded := (List.mem_filter.mp (List.mem_filter.mp internal).1).1
  exact (graph.edges_nodes edge recorded).2

/-- The scanned files in scan order, then their other dependencies in the order
in which they are first met. -/
def allNodes (graph : Graph) : List String :=
  (graph.scanned ++ graph.scanned.flatMap graph.successors).eraseDups

/-- Whether an identifier is outside the project: it was not scanned, and no
internal edge enters a node that it selects. -/
def isExternalNode (graph : Graph) (id : String) : Bool :=
  !graph.isScanned id && (graph.selected id).all fun node => (graph.inEdges node).all (·.isExternal)

/-- All edges, by source node and then by insertion. -/
def edgesByNode (graph : Graph) : List Edge := graph.nodes.flatMap graph.outEdges

/-- The internal edges, by source node and then by insertion. -/
def internalEdges (graph : Graph) : List Edge := graph.edgesByNode.filter (!·.isExternal)

/-- Counts over a graph. -/
structure Statistics where
  nodes : Nat
  edges : Nat
  scanned : Nat
  internal : Nat
  external : Nat
  externalEdges : Nat
  deriving DecidableEq, Repr

/-- The counts of a graph. -/
def statistics (graph : Graph) : Statistics where
  nodes := graph.nodes.length
  edges := graph.edges.length
  scanned := graph.scanned.length
  internal := graph.nodes.countP (!graph.isExternalNode ·)
  external := graph.nodes.countP graph.isExternalNode
  externalEdges := graph.edges.countP (·.isExternal)

end Graph

end ModuleAtlas
