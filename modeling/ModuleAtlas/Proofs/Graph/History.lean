import Mathlib.Data.List.Induction
import ModuleAtlas.Build
import ModuleAtlas.Proofs.Graph.Edges
import ModuleAtlas.Proofs.Text.Listing

/-! # What a store remembers

A store takes commands until it is frozen, and what it holds is told by the changes that
were asked for before the first freeze (`ModuleAtlas.Store.after_of_open`). Of these it
keeps the first mark of each file (`ModuleAtlas.Graph.scanned_replay`) and the first edge
between each two nodes, in the order in which they came, whichever end one asks at
(`ModuleAtlas.Graph.seenFrom_replay`). A frozen store refuses what it does not hold
already.
-/

namespace ModuleAtlas

/-- The edge that an operation asks for. -/
def Operation.edge? : Operation → Option Edge
  | .addFile _ => none
  | .addDependency source target isExternal => some ⟨source, target, isExternal⟩

namespace Graph

/-- The edges that operations ask for at a node, as seen from there, in their order. -/
def askedFrom (operations : List Operation) (near far : Edge → String) (node : String) :
    List (String × Bool) :=
  ((operations.filterMap Operation.edge?).filter fun edge => near edge = node).map
    fun edge => (far edge, edge.isExternal)

variable {near far : Edge → String}

private theorem replay_concat (graph : Graph) (operations : List Operation)
    (operation : Operation) :
    graph.replay (operations ++ [operation]) = (graph.replay operations).apply operation := by
  rw [replay, List.foldl_append]
  rfl

private theorem askedFrom_concat_addFile (operations : List Operation) (file node : String) :
    askedFrom (operations ++ [.addFile file]) near far node =
      askedFrom operations near far node := by
  unfold askedFrom
  rw [List.filterMap_append, List.filterMap_cons_none rfl, List.filterMap_nil, List.append_nil]

private theorem askedFrom_concat_addDependency (operations : List Operation)
    (source target : String) (isExternal : Bool) (node : String) :
    askedFrom (operations ++ [.addDependency source target isExternal]) near far node =
      askedFrom operations near far node ++
        if near ⟨source, target, isExternal⟩ = node then
          [(far ⟨source, target, isExternal⟩, isExternal)] else [] := by
  have asked : [Operation.addDependency source target isExternal].filterMap Operation.edge? =
      [⟨source, target, isExternal⟩] := rfl
  unfold askedFrom
  rw [List.filterMap_append, asked, List.filter_append, List.map_append]
  split
  · next same => rw [List.filter_cons_of_pos (by simpa using same), List.filter_nil]; rfl
  · next different => rw [List.filter_cons_of_neg (by simpa using different)]; rfl

/-- The scanned files are those that were marked, each where it was marked first. -/
theorem scanned_replay (operations : List Operation) :
    (empty.replay operations).scanned = (operations.filterMap Operation.addedFile?).eraseDups := by
  induction operations using List.reverseRecOn with
  | nil => rfl
  | append_singleton operations operation ih =>
      rw [replay_concat, List.filterMap_append]
      cases operation with
      | addFile file =>
          have asked : [Operation.addFile file].filterMap Operation.addedFile? = [file] := rfl
          rw [asked, Text.eraseDups_concat, ← ih, apply, scanned_addFile]
          have marked : file ∈ (empty.replay operations).scanned ↔
              file ∈ operations.filterMap Operation.addedFile? := by
            rw [ih, List.mem_eraseDups]
          simp only [marked]
      | addDependency source target isExternal =>
          rw [List.filterMap_cons_none rfl, List.filterMap_nil, List.append_nil, ← ih, apply,
            scanned_addDependency]

/-- The edges at a node are those that were asked for there, of those with one far end
the first only. -/
theorem seenFrom_replay (opposite : Edge.Opposite near far) (operations : List Operation)
    (node : String) :
    (empty.replay operations).seenFrom near far node =
      firstPerTarget (askedFrom operations near far node) := by
  induction operations using List.reverseRecOn with
  | nil => rfl
  | append_singleton operations operation ih =>
      rw [replay_concat]
      cases operation with
      | addFile file =>
          rw [askedFrom_concat_addFile, ← ih]
          unfold seenFrom
          rw [apply, edges_addFile]
      | addDependency source target isExternal =>
          rw [askedFrom_concat_addDependency, apply]
          by_cases same : near ⟨source, target, isExternal⟩ = node
          · subst same
            have listed := @mem_targets_firstPerTarget
              (askedFrom operations near far (near ⟨source, target, isExternal⟩))
              (far ⟨source, target, isExternal⟩)
            rw [if_pos rfl, firstPerTarget_concat, seenFrom_addDependency_self opposite, ih]
            simp only [listed]
          · rw [if_neg same, List.append_nil, seenFrom_addDependency_of_ne same, ih]

private theorem mem_scanned_replay {operations : List Operation} {file : String} :
    file ∈ (empty.replay operations).scanned ↔ .addFile file ∈ operations := by
  rw [scanned_replay, List.mem_eraseDups, List.mem_filterMap]
  constructor
  · rintro ⟨operation, member, added⟩
    cases operation with
    | addFile other =>
        cases added
        exact member
    | addDependency => cases added
  · exact fun member => ⟨_, member, rfl⟩

private theorem hasEdge_replay {operations : List Operation} {source target : String} :
    (empty.replay operations).hasEdge source target = true ↔
      ∃ isExternal, .addDependency source target isExternal ∈ operations := by
  rw [hasEdge_iff_mem_dependencies, dependencies_eq_seenFrom,
    seenFrom_replay Edge.opposite_source_target, mem_targets_firstPerTarget]
  simp only [askedFrom, List.mem_map, List.mem_filter, List.mem_filterMap, decide_eq_true_eq]
  constructor
  · rintro ⟨_, ⟨⟨_, _, isExternal⟩, ⟨⟨operation, member, asked⟩, rfl⟩, rfl⟩, rfl⟩
    cases operation with
    | addFile file => cases asked
    | addDependency =>
        cases asked
        exact ⟨isExternal, member⟩
  · rintro ⟨isExternal, member⟩
    exact ⟨_, ⟨⟨source, target, isExternal⟩, ⟨⟨_, member, rfl⟩, rfl⟩, rfl⟩, rfl⟩

end Graph

namespace Store

/-- The changes that are asked for before the first freeze. -/
def openChanges : List Command → List Operation
  | [] => []
  | .change operation :: commands => operation :: openChanges commands
  | .freeze :: _ => []

variable {store : Store}

/-- An open store makes every change. -/
theorem submit_of_open (isOpen : store.frozen = false) (operation : Operation) :
    (store.submit (.change operation)).1 = { store with graph := store.graph.apply operation } := by
  obtain ⟨graph, frozen⟩ := store
  cases isOpen
  cases operation <;> rfl

/-- A frozen store refuses a file at the first step of marking it, unless it is scanned. -/
theorem addFile_of_frozen (graph : Graph) (file : String) :
    (Store.mk graph true).addFile file =
      (⟨graph, true⟩, if file ∈ graph.scanned then .ok () else .error .frozenGraph) := by
  have left : graph.perform (Inventory.markFile true file) =
      (if file ∈ graph.scanned then .ok () else .error .frozenGraph, graph.toInventory) := by
    rw [Inventory.perform_markFile]
    simp only [graph.isScanned_iff]
    split <;> rfl
  have kept : (⟨_, graph.inStep.markFile true file⟩ : Graph) = graph :=
    Graph.eq_of_toInventory (congrArg Prod.snd left)
  exact Prod.ext (congrArg (Store.mk · true) kept) (congrArg Prod.fst left)

/-- A frozen store refuses an edge at the first step of recording it, which is that of its
target if this is no node yet, unless its ends are joined. -/
theorem addDependency_of_frozen (graph : Graph) (source target : String) (isExternal : Bool) :
    (Store.mk graph true).addDependency source target isExternal =
      (⟨graph, true⟩, if graph.hasEdge source target then .ok false else .error .frozenGraph) := by
  have left : graph.perform (Inventory.recordEdge true ⟨source, target, isExternal⟩) =
      (if graph.hasEdge source target then .ok false else .error .frozenGraph,
        graph.toInventory) := by
    rw [Inventory.perform_recordEdge]
    split <;> rfl
  have kept : (⟨_, graph.inStep.recordEdge true ⟨source, target, isExternal⟩⟩ : Graph) = graph :=
    Graph.eq_of_toInventory (congrArg Prod.snd left)
  exact Prod.ext (congrArg (Store.mk · true) kept) (congrArg Prod.fst left)

private theorem submit_addFile_of_frozen (frozen : store.frozen = true) (file : String) :
    store.submit (.change (.addFile file)) =
      (store, if file ∈ store.graph.scanned then .ok none else .error .frozenGraph) := by
  obtain ⟨graph, _⟩ := store
  cases frozen
  rw [submit, addFile_of_frozen]
  dsimp only
  split <;> rfl

private theorem submit_addDependency_of_frozen (frozen : store.frozen = true)
    (source target : String) (isExternal : Bool) :
    store.submit (.change (.addDependency source target isExternal)) =
      (store, if store.graph.hasEdge source target then .ok (some false)
        else .error .frozenGraph) := by
  obtain ⟨graph, _⟩ := store
  cases frozen
  rw [submit, addDependency_of_frozen]
  dsimp only
  split <;> rfl

/-- A frozen store stays as it is, whether it answers or refuses. -/
theorem submit_of_frozen (frozen : store.frozen = true) (command : Command) :
    (store.submit command).1 = store := by
  cases command with
  | change operation =>
      cases operation with
      | addFile file => rw [submit_addFile_of_frozen frozen]
      | addDependency source target isExternal => rw [submit_addDependency_of_frozen frozen]
  | freeze => simp only [submit, freeze, ← frozen]

private theorem after_cons (store : Store) (command : Command) (commands : List Command) :
    store.after (command :: commands) = (store.submit command).1.after commands := rfl

private theorem after_of_frozen (frozen : store.frozen = true) (commands : List Command) :
    store.after commands = store := by
  induction commands with
  | nil => rfl
  | cons command commands ih =>
      rw [after_cons, submit_of_frozen frozen, ih]

private theorem after_append (store : Store) (earlier later : List Command) :
    store.after (earlier ++ later) = (store.after earlier).after later := List.foldl_append

/-- An open store ends with the changes asked for before the first freeze, and frozen if
there was one. -/
theorem after_of_open (isOpen : store.frozen = false) (commands : List Command) :
    store.after commands =
      ⟨store.graph.replay (openChanges commands), decide (.freeze ∈ commands)⟩ := by
  induction commands generalizing store with
  | nil =>
      simp only [after, List.foldl_nil, Graph.replay, openChanges, List.not_mem_nil, decide_false,
        ← isOpen]
  | cons command commands ih =>
      rw [after_cons]
      cases command with
      | change operation =>
          have stillOpen : (Store.mk (store.graph.apply operation) store.frozen).frozen = false :=
            isOpen
          rw [submit_of_open isOpen, ih stillOpen]
          simp only [Graph.replay, openChanges, List.foldl_cons, List.mem_cons, reduceCtorEq,
            false_or]
      | freeze =>
          have frozen : (store.submit .freeze).1.frozen = true := rfl
          rw [after_of_frozen frozen]
          simp only [submit, freeze, Graph.replay, openChanges, List.foldl_nil, List.mem_cons,
            true_or, decide_true]

end Store

/-- What a new store holds after any commands is told by the changes asked for before the
first freeze. The scanned files are those marked, each where it was marked first, and they are
the files whose nodes are flagged; the dependencies of a file and the dependents of a node are
those asked for, of several edges between two nodes the first only. After a freeze nothing
changes: a file is refused unless it is scanned, an edge unless it is there and then it is not
new, and a build fails. -/
theorem Store.after_eq_openChanges (commands : List Command) :
    let store := Store.empty.after commands
    let changes := openChanges commands
    store.graph = Graph.empty.replay changes ∧
    store.graph.scanned = (changes.filterMap Operation.addedFile?).eraseDups ∧
    store.graph.scanned.Nodup ∧
    (∀ file, store.graph.isScanned file = true ↔ file ∈ store.graph.scanned) ∧
    (∀ file, store.graph.dependencies file =
      firstPerTarget (Graph.askedFrom changes Edge.source Edge.target file)) ∧
    (∀ node, store.graph.dependents node =
      firstPerTarget (Graph.askedFrom changes Edge.target Edge.source node)) ∧
    (.freeze ∈ commands →
      (∀ later, Store.empty.after (commands ++ later) = store) ∧
      (∀ file, (store.submit (.change (.addFile file))).2 =
        if .addFile file ∈ changes then .ok none else .error .frozenGraph) ∧
      (∀ source target isExternal,
        ((∃ recorded, .addDependency source target recorded ∈ changes) →
          (store.submit (.change (.addDependency source target isExternal))).2 =
            .ok (some false)) ∧
        ((¬ ∃ recorded, .addDependency source target recorded ∈ changes) →
          (store.submit (.change (.addDependency source target isExternal))).2 =
            .error .frozenGraph)) ∧
      ∀ project request, Build.build project request store = ⟨store, [], some .alreadyBuilt⟩) := by
  intro store changes
  have whole : store = ⟨Graph.empty.replay changes, decide (.freeze ∈ commands)⟩ :=
    after_of_open rfl commands
  have graph : store.graph = Graph.empty.replay changes := congrArg Store.graph whole
  refine ⟨graph, ?_, store.graph.scanned_nodup, store.graph.isScanned_iff, ?_, ?_, ?_⟩
  · rw [graph, Graph.scanned_replay]
  · intro file
    rw [graph, Graph.dependencies_eq_seenFrom, Graph.seenFrom_replay Edge.opposite_source_target]
  · intro node
    rw [graph, Graph.dependents_eq_seenFrom, Graph.seenFrom_replay Edge.opposite_target_source]
  · intro asked
    have frozen : store.frozen = true :=
      (congrArg Store.frozen whole).trans (decide_eq_true asked)
    refine ⟨fun later => ?_, fun file => ?_, fun source target isExternal => ⟨?_, ?_⟩, ?_⟩
    · rw [after_append]
      exact after_of_frozen frozen later
    · rw [submit_addFile_of_frozen frozen, graph]
      simp only [Graph.mem_scanned_replay]
    · intro recorded
      rw [submit_addDependency_of_frozen frozen, graph,
        if_pos (Graph.hasEdge_replay.mpr recorded)]
    · intro unrecorded
      rw [submit_addDependency_of_frozen frozen, graph,
        if_neg fun joined => unrecorded (Graph.hasEdge_replay.mp joined)]
    · intro project request
      exact if_pos frozen

/-- The edge that came first is kept, and its source becomes a scanned file later. -/
example :
    let store := Store.empty.after [.change (.addDependency "a" "b" true), .change (.addFile "a"),
      .change (.addDependency "a" "b" false), .freeze, .change (.addFile "b")]
    store.graph.scanned = ["a"] ∧ store.graph.dependents "b" = [("a", true)] := by decide

end ModuleAtlas
