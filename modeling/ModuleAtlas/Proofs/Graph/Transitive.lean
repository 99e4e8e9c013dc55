import Mathlib.Data.List.Chain
import ModuleAtlas.Graph.Query
import ModuleAtlas.Proofs.Graph.Closure

/-! # What a file depends on, and in which order it is listed

A stack of nodes is expanded from its top, and a node is listed as soon as it is met, long
before its turn on the stack comes. What keeps the three lists of the expansion together is
that every listed node either has been expanded or is on the stack, and never both
(`ModuleAtlas.Graph.Expansion.parted`). So no node comes up for expansion twice, and once the
stack is empty all that is listed has been expanded: nothing that an edge leads to from there
is left out (`ModuleAtlas.Graph.mem_transitive_iff`).

The order is that of a recursion without a stack, which lists the unlisted targets of the edges
of a node and then expands these in turn (`ModuleAtlas.Graph.Expansion.exists_expands`).
-/

namespace ModuleAtlas.Graph

/-- What the edges that leave a node lead to, in the order in which they were recorded. -/
def targetsFrom (graph : Graph) (node : String) : List String :=
  graph.edges.filterMap fun edge => if edge.source = node then some edge.target else none

/-- The targets of the edges of a node that are not listed yet. -/
def freshTargets (graph : Graph) (listed : List String) (node : String) : List String :=
  (graph.targetsFrom node).filter (· ∉ listed)

/-- Expanding some nodes one after the other, with `listed` listed so far, lists `found`:
for each node its unlisted targets, then what the expansion of these finds, and only
then what the next node brings. -/
inductive Expands (graph : Graph) : List String → List String → List String → Prop where
  | nil (listed : List String) : graph.Expands listed [] []
  | cons {listed nodes below beside : List String} {node : String}
      (inner : graph.Expands (listed ++ graph.freshTargets listed node)
        (graph.freshTargets listed node) below)
      (later : graph.Expands (listed ++ (graph.freshTargets listed node ++ below)) nodes
        beside) :
      graph.Expands listed (node :: nodes)
        (graph.freshTargets listed node ++ below ++ beside)

section Order

variable {graph : Graph} {listed nodes found : List String}

/-- The recursion leaves no choice. -/
theorem Expands.unique {other : List String} (one : graph.Expands listed nodes found)
    (another : graph.Expands listed nodes other) : found = other := by
  induction one generalizing other with
  | nil listed =>
      cases another
      rfl
  | cons _ _ innerSame laterSame =>
      cases another with
      | cons inner later =>
          cases innerSame inner
          cases laterSame later
          rfl

/-- Nodes are expanded after those before them, with what these found listed. -/
theorem Expands.split {first second : List String}
    (expands : graph.Expands listed (first ++ second) found) :
    ∃ front back, found = front ++ back ∧ graph.Expands listed first front ∧
      graph.Expands (listed ++ front) second back := by
  induction first generalizing listed found with
  | nil =>
      refine ⟨[], found, rfl, .nil listed, ?_⟩
      rwa [List.append_nil]
  | cons node first ih =>
      cases expands with
      | @cons _ _ below _ _ inner later =>
          obtain ⟨front, back, rfl, early, late⟩ := ih later
          refine ⟨graph.freshTargets listed node ++ below ++ front, back, ?_,
            .cons inner early, ?_⟩
          · rw [← List.append_assoc]
          · rwa [List.append_assoc] at late

/-- The successors of a node are the targets of its edges, in the same order. -/
theorem successors_eq_targetsFrom (graph : Graph) (node : String) :
    graph.successors node = graph.targetsFrom node := by
  rw [successors, outEdges, targetsFrom, ← List.filterMap_eq_map, List.filterMap_filter]
  simp only [decide_eq_true_eq, Function.comp_apply]

private theorem without_successors_eq (graph : Graph) (listed : List String) (node : String) :
    without (graph.successors node) listed = graph.freshTargets listed node := by
  rw [successors_eq_targetsFrom]
  rfl

/-- No two edges lead from one node to another, so no successor is listed twice. -/
theorem nodup_successors (graph : Graph) (node : String) : (graph.successors node).Nodup := by
  have ends : ((graph.outEdges node).map Edge.ends).Nodup :=
    graph.edges_distinct.sublist (List.filter_sublist.map Edge.ends)
  rw [successors, List.nodup_map_iff_inj_on (List.Nodup.of_map _ ends)]
  intro first one second other same
  have source := of_decide_eq_true (List.mem_filter.mp one).2
  have origin := of_decide_eq_true (List.mem_filter.mp other).2
  apply List.inj_on_of_nodup_map ends one other
  rw [Edge.ends, Edge.ends, source, origin, same]

end Order

/-- What holds between the three lists of an expansion that began with the dependencies of
`file`. -/
structure Expansion (graph : Graph) (file : String) (listed expanded stack : List String) :
    Prop where
  /-- No node is listed twice. -/
  distinct : listed.Nodup
  /-- A listed node has been expanded or is on the stack, and never both. -/
  parted : listed.Perm (expanded ++ stack)
  /-- Edges lead from the file to all that is listed. -/
  reached : ∀ node ∈ listed, Relation.TransGen graph.DependsOn file node
  /-- The direct dependencies are listed. -/
  direct : ∀ next, graph.DependsOn file next → next ∈ listed
  /-- What an expanded node depends on is listed. -/
  closed : ∀ node ∈ expanded, ∀ next, graph.DependsOn node next → next ∈ listed

section Expansion

variable {graph : Graph} {file node : String} {listed expanded stack : List String}

private theorem expand_nil (graph : Graph) (listed expanded : List String) :
    graph.expand listed expanded [] = listed := by
  rw [expand.eq_def]

private theorem expand_of_notMem (waiting : node ∉ expanded) (listed stack : List String) :
    graph.expand listed expanded (node :: stack) =
      graph.expand (listed ++ graph.freshTargets listed node) (node :: expanded)
        (graph.freshTargets listed node ++ stack) := by
  rw [expand.eq_def, ← without_successors_eq]
  exact if_neg waiting

private theorem expansion_start (graph : Graph) (file : String) :
    graph.Expansion file (graph.successors file) [] (graph.successors file) where
  distinct := graph.nodup_successors file
  parted := .refl _
  reached _ listed := .single (mem_successors_iff.mp listed)
  direct _ depends := mem_successors_iff.mpr depends
  closed _ expanded := absurd expanded List.not_mem_nil

/-- A node on the stack has not had its turn. -/
theorem Expansion.top_notMem (expansion : graph.Expansion file listed expanded (node :: stack)) :
    node ∉ expanded := by
  have apart := List.disjoint_of_nodup_append (expansion.parted.nodup expansion.distinct)
  exact fun again => apart again List.mem_cons_self

private theorem mem_freshTargets_iff {next : String} :
    next ∈ graph.freshTargets listed node ↔ graph.DependsOn node next ∧ next ∉ listed := by
  rw [← without_successors_eq, mem_without_iff, mem_successors_iff]

open scoped List in
/-- The turn of the top of the stack: its unlisted targets are listed, and they take its place
on the stack. -/
theorem Expansion.turn (expansion : graph.Expansion file listed expanded (node :: stack)) :
    graph.Expansion file (listed ++ graph.freshTargets listed node) (node :: expanded)
      (graph.freshTargets listed node ++ stack) := by
  have reached : Relation.TransGen graph.DependsOn file node :=
    expansion.reached node (expansion.parted.mem_iff.mpr
      (List.mem_append_right expanded List.mem_cons_self))
  constructor
  case distinct =>
    have fresh : (graph.freshTargets listed node).Nodup := by
      rw [← without_successors_eq]
      exact (graph.nodup_successors node).filter _
    apply expansion.distinct.append fresh
    intro next early late
    exact (mem_freshTargets_iff.mp late).2 early
  case parted =>
    calc listed ++ graph.freshTargets listed node
      _ ~ expanded ++ node :: stack ++ graph.freshTargets listed node :=
          expansion.parted.append_right _
      _ ~ node :: (expanded ++ stack) ++ graph.freshTargets listed node :=
          List.perm_middle.append_right _
      _ ~ node :: expanded ++ (graph.freshTargets listed node ++ stack) := by
          rw [List.cons_append, List.append_assoc, List.cons_append]
          exact (List.perm_append_comm.append_left expanded).cons node
  case reached =>
    intro next member
    rcases List.mem_append.mp member with early | late
    · exact expansion.reached next early
    · exact reached.tail (mem_freshTargets_iff.mp late).1
  case direct =>
    exact fun next depends => List.mem_append_left _ (expansion.direct next depends)
  case closed =>
    intro other turned next depends
    rcases List.mem_cons.mp turned with rfl | before
    · by_cases early : next ∈ listed
      · exact List.mem_append_left _ early
      · exact List.mem_append_right _ (mem_freshTargets_iff.mpr ⟨depends, early⟩)
    · exact List.mem_append_left _ (expansion.closed other before next depends)

/-- The turns of a stack. No node comes up twice, so the check for it is never met. -/
theorem Expansion.turns_induction
    {motive : ∀ listed expanded stack, graph.Expansion file listed expanded stack → Prop}
    (nil : ∀ listed expanded expansion, motive listed expanded [] expansion)
    (turn : ∀ listed expanded node stack expansion, motive _ _ _ expansion.turn →
      motive listed expanded (node :: stack) expansion)
    (listed expanded stack : List String)
    (expansion : graph.Expansion file listed expanded stack) :
    motive listed expanded stack expansion := by
  induction listed, expanded, stack using expand.induct graph with
  | case1 listed expanded => exact nil listed expanded expansion
  | case2 listed expanded node stack again => exact absurd again expansion.top_notMem
  | case3 listed expanded node stack waiting children ih =>
      have same : children = graph.freshTargets listed node := without_successors_eq ..
      rw [same] at ih
      exact turn listed expanded node stack expansion (ih expansion.turn)

/-- At the end all that is listed has been expanded. -/
theorem Expansion.finished (expansion : graph.Expansion file listed expanded stack) :
    ∃ done, graph.Expansion file (graph.expand listed expanded stack) done [] := by
  induction listed, expanded, stack, expansion using Expansion.turns_induction with
  | nil listed expanded expansion =>
      rw [expand_nil]
      exact ⟨expanded, expansion⟩
  | turn listed expanded node stack expansion ih =>
      rw [expand_of_notMem expansion.top_notMem]
      exact ih

/-- A stack lists what the recursion lists, in the same order. -/
theorem Expansion.exists_expands (expansion : graph.Expansion file listed expanded stack) :
    ∃ found, graph.expand listed expanded stack = listed ++ found ∧
      graph.Expands listed stack found := by
  induction listed, expanded, stack, expansion using Expansion.turns_induction with
  | nil listed expanded expansion =>
      refine ⟨[], ?_, .nil listed⟩
      rw [expand_nil, List.append_nil]
  | turn listed expanded node stack expansion ih =>
      obtain ⟨found, ends, expands⟩ := ih
      -- The targets stand on top of the stack, so they are worked off before the rest of it.
      obtain ⟨below, beside, rfl, inner, later⟩ := expands.split
      rw [List.append_assoc] at later
      refine ⟨graph.freshTargets listed node ++ below ++ beside, ?_, .cons inner later⟩
      rw [expand_of_notMem expansion.top_notMem, ends]
      simp only [List.append_assoc]

end Expansion

section Transitive

variable {graph : Graph} {file node : String}

private theorem expansion_transitive (graph : Graph) (file : String) :
    ∃ done, graph.Expansion file (graph.transitive file) done [] :=
  (graph.expansion_start file).finished

/-- No dependency is listed twice. -/
theorem nodup_transitive (graph : Graph) (file : String) : (graph.transitive file).Nodup := by
  obtain ⟨done, expansion⟩ := graph.expansion_transitive file
  exact expansion.distinct

/-- What is listed for a file is what one or more edges lead to from it. -/
theorem mem_transitive_iff :
    node ∈ graph.transitive file ↔ Relation.TransGen graph.DependsOn file node := by
  obtain ⟨done, expansion⟩ := graph.expansion_transitive file
  constructor
  · exact expansion.reached node
  · intro path
    induction path with
    | single depends => exact expansion.direct _ depends
    | @tail middle next _ depends listed =>
        have turned := expansion.parted.mem_iff.mp listed
        rw [List.append_nil] at turned
        exact expansion.closed middle turned next depends

/-- One or more edges lead from a node to another exactly along a chain. -/
theorem transGen_dependsOn_iff :
    Relation.TransGen graph.DependsOn file node ↔
      ∃ between, (file :: (between ++ [node])).IsChain graph.DependsOn := by
  constructor
  · intro path
    induction path with
    | single depends => exact ⟨[], List.isChain_pair.mpr depends⟩
    | @tail middle _ _ depends ih =>
        obtain ⟨between, chain⟩ := ih
        refine ⟨between ++ [middle], ?_⟩
        rw [List.append_assoc]
        exact List.isChain_cons_append_cons_cons.mpr ⟨chain, depends, List.isChain_singleton _⟩
  · rintro ⟨between, chain⟩
    induction between generalizing file with
    | nil => exact .single (List.isChain_pair.mp chain)
    | cons next between ih =>
        obtain ⟨depends, chain⟩ := List.isChain_cons_cons.mp chain
        exact (ih chain).head depends

end Transitive

/-- The dependencies of a file, direct or not, are listed once each, and they are the nodes
that one or more recorded edges lead to; the file is among them exactly if it lies on a cycle.
The direct dependencies come first in the order of their edges, and the rest is what the
recursive expansion of these, one after the other, lists. -/
theorem transitive_lists_reachable (graph : Graph) (file : String) :
    (graph.transitive file).Nodup ∧
    (∀ node, node ∈ graph.transitive file ↔ Relation.TransGen graph.DependsOn file node) ∧
    (file ∈ graph.transitive file ↔
      ∃ between, (file :: (between ++ [file])).IsChain graph.DependsOn) ∧
    ∃ rest, graph.transitive file = graph.targetsFrom file ++ rest ∧
      ∀ found, graph.Expands (graph.targetsFrom file) (graph.targetsFrom file) found ↔
        found = rest := by
  refine ⟨graph.nodup_transitive file, fun node => mem_transitive_iff,
    mem_transitive_iff.trans transGen_dependsOn_iff, ?_⟩
  obtain ⟨rest, listing, expands⟩ := (graph.expansion_start file).exists_expands
  rw [successors_eq_targetsFrom] at expands
  refine ⟨rest, ?_, fun found => ⟨fun other => other.unique expands, fun same => same ▸ expands⟩⟩
  rw [transitive, listing, successors_eq_targetsFrom]

end ModuleAtlas.Graph
