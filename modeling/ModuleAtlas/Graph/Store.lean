import ModuleAtlas.Failure
import ModuleAtlas.Graph.Basic

/-! # Graph stores

A store holds a graph that grows until it is frozen. A frozen store refuses every single
step that would change its nodes or edges, wherever in an operation the step is made. An
operation is made of such steps, and in between the parts of the graph need not agree; at
its end they do (`ModuleAtlas.Inventory.InStep.markFile`,
`ModuleAtlas.Inventory.InStep.recordEdge`), also if it was refused on the way.
-/

namespace ModuleAtlas

namespace Inventory

/-- A sequence of steps on an inventory that may be refused on the way. What was done
before the refusal stays done. -/
abbrev Action (α : Type) := ExceptT Failure (StateM Inventory) α

/-- The answer of an action, or why it was refused, and the inventory that it leaves. -/
def perform {α : Type} (inventory : Inventory) (action : Action α) :
    Except Failure α × Inventory := action.run.run inventory

/-- A step that changes nodes or edges. A frozen inventory refuses it. -/
def alter (frozen : Bool) (step : Inventory → Inventory) : Action Unit :=
  if frozen then throw .frozenGraph else modify step

/-- Marks a file as scanned: its node is flagged, and then the file is listed. -/
def markFile (frozen : Bool) (file : String) : Action Unit := do
  unless (← get).isScanned file do
    alter frozen (·.flag file true)
    modify (·.enlist file)

/-- Records an edge unless its ends are joined already, and tells whether it is new. The
target becomes a node before the source does. -/
def recordEdge (frozen : Bool) (edge : Edge) : Action Bool := do
  if (← get).hasEdge edge.source edge.target then return false
  unless (← get).hasNode edge.target do
    alter frozen (·.flag edge.target false)
  alter frozen (·.connect edge)
  return true

private theorem perform_get (inventory : Inventory) :
    inventory.perform (get : Action Inventory) = (.ok inventory, inventory) := rfl

private theorem perform_bind {α β : Type} (inventory : Inventory) (first : Action α)
    (next : α → Action β) :
    inventory.perform (first >>= next) =
      match inventory.perform first with
      | (.ok answer, left) => left.perform (next answer)
      | (.error failure, left) => (.error failure, left) := by
  change (ExceptT.bindCont next (first.run.run inventory).1).run (first.run.run inventory).2 = _
  unfold perform
  rcases first.run.run inventory with ⟨_ | _, left⟩ <;> rfl

/-- A file is marked if it was not scanned, and the refusal comes before anything is done. -/
theorem perform_markFile (inventory : Inventory) (frozen : Bool) (file : String) :
    inventory.perform (markFile frozen file) =
      if inventory.isScanned file then (.ok (), inventory)
      else if frozen then (.error .frozenGraph, inventory)
      else (.ok (), (inventory.flag file true).enlist file) := by
  unfold markFile
  rw [perform_bind, perform_get]
  dsimp only
  cases inventory.isScanned file with
  | true => rfl
  | false => cases frozen <;> rfl

/-- An edge is recorded if its ends were not joined. A refusal comes with the first change,
which is that of the target or, if that is a node, that of the edge itself. -/
theorem perform_recordEdge (inventory : Inventory) (frozen : Bool) (edge : Edge) :
    inventory.perform (recordEdge frozen edge) =
      if inventory.hasEdge edge.source edge.target then (.ok false, inventory)
      else if frozen then (.error .frozenGraph, inventory)
      else (.ok true, (inventory.touch edge.target).connect edge) := by
  unfold recordEdge
  rw [perform_bind, perform_get]
  dsimp only
  cases inventory.hasEdge edge.source edge.target with
  | true => rfl
  | false =>
      unfold touch
      simp only [Bool.false_eq_true, ↓reduceIte]
      rw [perform_bind, perform_get]
      dsimp only
      cases inventory.hasNode edge.target <;> cases frozen <;> rfl

variable {inventory : Inventory}

/-- Marking a file keeps the parts of an inventory in step, also if it is refused. -/
theorem InStep.markFile (inStep : inventory.InStep) (frozen : Bool) (file : String) :
    (inventory.perform (markFile frozen file)).2.InStep := by
  rw [perform_markFile]
  cases unscanned : inventory.isScanned file with
  | true => exact inStep
  | false =>
      cases frozen with
      | true => exact inStep
      | false => exact inStep.flag_enlist unscanned

/-- Recording an edge keeps the parts of an inventory in step, also if it is refused. -/
theorem InStep.recordEdge (inStep : inventory.InStep) (frozen : Bool) (edge : Edge) :
    (inventory.perform (recordEdge frozen edge)).2.InStep := by
  rw [perform_recordEdge]
  cases apart : inventory.hasEdge edge.source edge.target with
  | true => exact inStep
  | false =>
      cases frozen with
      | true => exact inStep
      | false =>
          refine (inStep.touch edge.target).connect ?_
          unfold hasEdge at apart ⊢
          rwa [edges_touch]

end Inventory

namespace Graph

/-- The graph with a file marked as scanned. -/
def addFile (graph : Graph) (file : String) : Graph :=
  ⟨(graph.perform (Inventory.markFile false file)).2, graph.inStep.markFile false file⟩

/-- The graph with an edge, unless its ends are joined already. -/
def addDependency (graph : Graph) (source target : String) (isExternal : Bool) : Graph :=
  ⟨(graph.perform (Inventory.recordEdge false ⟨source, target, isExternal⟩)).2,
    graph.inStep.recordEdge false ⟨source, target, isExternal⟩⟩

/-- Adding a file that was not scanned flags and lists it. -/
theorem toInventory_addFile (graph : Graph) (file : String) :
    (graph.addFile file).toInventory =
      if graph.isScanned file then graph.toInventory
      else (graph.flag file true).enlist file := by
  change (graph.perform (Inventory.markFile false file)).2 = _
  rw [Inventory.perform_markFile]
  cases graph.isScanned file <;> rfl

/-- Adding an edge between nodes not joined makes the target a node, then connects. -/
theorem toInventory_addDependency (graph : Graph) (source target : String) (isExternal : Bool) :
    (graph.addDependency source target isExternal).toInventory =
      if graph.hasEdge source target then graph.toInventory
      else (graph.touch target).connect ⟨source, target, isExternal⟩ := by
  change (graph.perform (Inventory.recordEdge false ⟨source, target, isExternal⟩)).2 = _
  rw [Inventory.perform_recordEdge]
  cases graph.hasEdge source target <;> rfl

end Graph

/-- A change asked of a graph. -/
inductive Operation where
  | addFile (file : String)
  | addDependency (source target : String) (isExternal : Bool)
  deriving DecidableEq, Repr

/-- The graph after an operation. -/
def Graph.apply (graph : Graph) : Operation → Graph
  | .addFile file => graph.addFile file
  | .addDependency source target isExternal => graph.addDependency source target isExternal

/-- The graph after a sequence of operations. -/
def Graph.replay (graph : Graph) (operations : List Operation) : Graph :=
  operations.foldl Graph.apply graph

/-- A graph and whether it is closed to change. -/
structure Store where
  graph : Graph
  frozen : Bool

namespace Store

/-- The open store without nodes. -/
def empty : Store := ⟨Graph.empty, false⟩

/-- The store after a file was to be marked as scanned, and why that was refused. -/
def addFile (store : Store) (file : String) : Store × Except Failure Unit :=
  let left := store.graph.perform (Inventory.markFile store.frozen file)
  ({ store with graph := ⟨left.2, store.graph.inStep.markFile store.frozen file⟩ }, left.1)

/-- The store after an edge was to be recorded, and whether it is new or why it was
refused. -/
def addDependency (store : Store) (source target : String) (isExternal : Bool) :
    Store × Except Failure Bool :=
  let edge : Edge := ⟨source, target, isExternal⟩
  let left := store.graph.perform (Inventory.recordEdge store.frozen edge)
  ({ store with graph := ⟨left.2, store.graph.inStep.recordEdge store.frozen edge⟩ }, left.1)

/-- The store closed to change. -/
def freeze (store : Store) : Store := { store with frozen := true }

/-- What can be asked of a store: a change of its graph, or that it takes no more. -/
inductive Command where
  | change (operation : Operation)
  | freeze
  deriving DecidableEq, Repr

/-- The store after a command, and its answer: whether an edge is new, nothing to the
other commands, or why the command was refused. -/
def submit (store : Store) : Command → Store × Except Failure (Option Bool)
  | .change (.addFile file) =>
      let (after, answer) := store.addFile file
      (after, answer.map fun _ => none)
  | .change (.addDependency source target isExternal) =>
      let (after, answer) := store.addDependency source target isExternal
      (after, answer.map some)
  | .freeze => (store.freeze, .ok none)

/-- The store after a sequence of commands, refused ones included. -/
def after (store : Store) (commands : List Command) : Store :=
  commands.foldl (fun store command => (store.submit command).1) store

end Store

end ModuleAtlas
