import ModuleAtlas.Proofs.Build.Dependencies
import ModuleAtlas.Proofs.Graph.BackEdges

/-! # The cycles of a build

A depth-first pass from the scanned files reports some cycles, a search lists them all.
Every edge of a build leaves a scanned file, so no cycle is out of the reach of the pass,
and the two agree: what is reported is listed, no two reported cycles are the same, and
every listed cycle takes the closing step of a reported one.
-/

namespace ModuleAtlas

namespace Graph

variable {graph : Graph} {cycles : List (List String)}

/-- Every closed chain takes the closing step of a reported cycle if its nodes are
reached. -/
theorem IsClosedChain.exists_closing {chain : List String} (closed : graph.IsClosedChain chain)
    (reached : ∀ node ∈ chain, graph.Reached node) :
    ∃ cycle ∈ graph.detectCycles, ∃ source target,
      closingEdge cycle = (some source, some target) ∧ [source, target] <:+: chain := by
  obtain ⟨finished, order, done⟩ := graph.exists_finished
  obtain ⟨node, member, starts, ends⟩ := closed.exists_ends
  rcases isChain_openEdge_or graph.Closes closed.linked with avoids | ⟨source, target, step, closes⟩
  · exact absurd (transGen_of_isChain closed.long starts ends avoids)
      (order.not_transGen (done node (reached node member)))
  · obtain ⟨cycle, reported, same⟩ := List.mem_map.mp closes
    exact ⟨cycle, reported, source, target, same, step⟩

/-- Every reported cycle is a rotation of one in a list of all cycles. -/
theorem Enumerates.exists_listed (all : graph.Enumerates cycles) :
    ∀ cycle ∈ graph.detectCycles, ∃ other ∈ cycles, IsSameCycle other cycle :=
  fun cycle reported => all.exists_same cycle (graph.reports_detectCycles.cycle cycle reported)

/-- There are no more reported cycles than a list of all cycles has. -/
theorem Enumerates.length_detectCycles_le (all : graph.Enumerates cycles) :
    graph.detectCycles.length ≤ cycles.length := by
  choose! written member same using all.exists_listed
  have distinct : (graph.detectCycles.map written).Nodup := by
    rw [List.nodup_iff_pairwise_ne, List.pairwise_map]
    apply graph.detectCycles_pairwise.imp_of_mem
    intro first second early late different equal
    have other := same second late
    rw [← equal] at other
    exact different ((same first early).symm.trans other)
  have inside : graph.detectCycles.map written ⊆ cycles := by
    intro cycle listed
    obtain ⟨reported, early, rfl⟩ := List.mem_map.mp listed
    exact member reported early
  rw [← List.length_map]
  exact distinct.length_le_of_subset inside

end Graph

namespace Build

/-- Every node of a closed chain of a build was scanned, and so it is reached. -/
theorem reached_of_isClosedChain {project : Project} {request : BuildRequest}
    {chain : List String} {node : String}
    (closed : (build project request Store.empty).store.graph.IsClosedChain chain)
    (member : node ∈ chain) : (build project request Store.empty).store.graph.Reached node := by
  obtain ⟨next, edge⟩ := closed.exists_edge member
  exact ⟨node, source_mem_scanned_build edge, .refl⟩

/-- The two ways to find the cycles of a build agree. The search lists every cycle once, up to
rotation. Every reported cycle is a rotation of one that is listed, no two reported cycles are
rotations of one another, so there are at most as many; every listed cycle takes the closing
step of a reported one; and nothing is reported exactly if nothing is listed. -/
theorem cycle_searches_agree (project : Project) (request : BuildRequest) :
    let graph := (build project request Store.empty).store.graph
    ∃ listed, graph.simpleCycles none = .ok listed ∧ graph.Enumerates listed ∧
      (∀ cycle ∈ graph.detectCycles, ∃ other ∈ listed, Graph.IsSameCycle other cycle) ∧
      (graph.detectCycles.Pairwise fun first second => ¬ Graph.IsSameCycle first second) ∧
      graph.detectCycles.length ≤ listed.length ∧
      (∀ cycle ∈ listed, ∃ reported ∈ graph.detectCycles, ∃ source target,
        Graph.closingEdge reported = (some source, some target) ∧ [source, target] <:+: cycle) ∧
      (graph.detectCycles = [] ↔ listed = []) := by
  intro graph
  have all := graph.enumerates_cyclesWithin
  have closes : ∀ cycle ∈ graph.cyclesWithin graph.nodes.length, ∃ reported ∈ graph.detectCycles,
      ∃ source target, Graph.closingEdge reported = (some source, some target) ∧
        [source, target] <:+: cycle := by
    intro cycle listed
    have closed := (all.isCycle cycle listed).toIsClosedChain
    exact closed.exists_closing fun node member => reached_of_isClosedChain closed member
  refine ⟨_, rfl, all, all.exists_listed, graph.detectCycles_pairwise,
    all.length_detectCycles_le, closes, fun none => ?_, fun none => ?_⟩
  · apply List.eq_nil_iff_forall_not_mem.mpr
    intro cycle listed
    obtain ⟨reported, member, -⟩ := closes cycle listed
    rw [none] at member
    cases member
  · apply List.eq_nil_iff_forall_not_mem.mpr
    intro cycle reported
    obtain ⟨other, member, -⟩ := all.exists_listed cycle reported
    rw [none] at member
    cases member

end Build

end ModuleAtlas
