import ModuleAtlas.Proofs.Graph.Trail

/-! # Every cycle is witnessed

Nodes finish in an order: every internal edge of a finished node closes a reported
cycle or leads to a node that finished before it (`ModuleAtlas.Graph.Finished`). A
closed chain that avoids the closing edges would have to finish earlier at every
step. So every closed chain of nodes that are reached from the scanned files uses a
closing edge (`ModuleAtlas.Graph.detectCycles_witness`).
-/

namespace ModuleAtlas.Graph

/-- Nodes in the order in which they finished, the latest first: every internal edge
of a node is closed or leads to a node that finished before. -/
def Finished (graph : Graph) (closed : String → String → Prop) : List String → Prop
  | [] => True
  | node :: earlier =>
      (∀ child, graph.HasInternalEdge node child → closed node child ∨ child ∈ earlier) ∧
        graph.Finished closed earlier

/-- Branches that go on once the branches inside them finish: every successor of a
branch that is not pending is closed, finished, or on a branch inside it. -/
def Suspended (graph : Graph) (closed : String → String → Prop) :
    List String → List Branch → Prop
  | _, [] => True
  | finished, branch :: branches =>
      (∃ done, graph.internalSuccessors branch.node = done ++ branch.pending ∧
        ∀ child ∈ done, closed branch.node child ∨ child ∈ finished) ∧
        graph.Suspended closed (branch.node :: finished) branches

/-- How far a depth-first pass has come: every node is unseen, on the path or
finished. -/
structure Explored (graph : Graph) (closed : String → String → Prop) (unseen : List String)
    (branches : List Branch) (finished : List String) : Prop where
  order : graph.Finished closed finished
  suspended : graph.Suspended closed finished branches
  covers : ∀ node ∈ graph.nodes, node ∈ unseen ∨ node ∈ branches.map Branch.node ∨ node ∈ finished

section Completeness

variable {graph : Graph} {closed : String → String → Prop} {unseen pending finished : List String}
  {branches : List Branch} {node child : String}

private theorem Suspended.mono {more : List String}
    (suspended : graph.Suspended closed finished branches)
    (kept : finished ⊆ more) : graph.Suspended closed more branches := by
  induction branches generalizing finished more with
  | nil => trivial
  | cons branch branches ih =>
      obtain ⟨⟨done, successors, settled⟩, outer⟩ := suspended
      refine ⟨⟨done, successors, fun child member => ?_⟩, ih outer (List.cons_subset_cons _ kept)⟩
      exact (settled child member).imp_right fun early => kept early

private theorem Explored.pop
    (explored : graph.Explored closed unseen (⟨node, []⟩ :: branches) finished) :
    graph.Explored closed unseen branches (node :: finished) := by
  obtain ⟨⟨done, successors, settled⟩, outer⟩ := explored.suspended
  refine ⟨⟨fun child edge => settled child ?_, explored.order⟩, outer, fun other member => ?_⟩
  · rw [List.append_nil] at successors
    rw [← successors]
    exact (mem_internalSuccessors (graph.edges_nodes _ edge).1).mpr edge
  · rcases explored.covers other member with waiting | onPath | done
    · exact Or.inl waiting
    · rcases List.mem_cons.mp onPath with rfl | outer
      · exact Or.inr (Or.inr List.mem_cons_self)
      · exact Or.inr (Or.inl outer)
    · exact Or.inr (Or.inr (List.mem_cons_of_mem node done))

/-- A child that is closed or finished is done with. -/
theorem Explored.look
    (explored : graph.Explored closed unseen (⟨node, child :: pending⟩ :: branches) finished)
    (settled : closed node child ∨ child ∈ finished) :
    graph.Explored closed unseen (⟨node, pending⟩ :: branches) finished := by
  obtain ⟨⟨done, successors, earlier⟩, outer⟩ := explored.suspended
  refine ⟨explored.order, ⟨⟨done ++ [child], ?_, ?_⟩, outer⟩, explored.covers⟩
  · rw [List.append_assoc]
    exact successors
  · exact List.forall_mem_append.mpr ⟨earlier, List.forall_mem_singleton.mpr settled⟩

private theorem Explored.push
    (explored : graph.Explored closed unseen (⟨node, child :: pending⟩ :: branches) finished) :
    graph.Explored closed (unseen.erase child)
      (⟨child, graph.internalSuccessors child⟩ :: ⟨node, pending⟩ :: branches) finished := by
  obtain ⟨⟨done, successors, earlier⟩, outer⟩ := explored.suspended
  refine ⟨explored.order, ⟨⟨[], rfl, List.forall_mem_nil _⟩, ⟨done ++ [child], ?_, ?_⟩, ?_⟩,
    fun other member => ?_⟩
  · rw [List.append_assoc]
    exact successors
  · refine List.forall_mem_append.mpr ⟨fun other member => ?_,
      List.forall_mem_singleton.mpr (Or.inr List.mem_cons_self)⟩
    exact (earlier other member).imp_right (List.mem_cons_of_mem child)
  · exact outer.mono (List.cons_subset_cons _ (List.subset_cons_self child finished))
  · by_cases same : other = child
    · exact Or.inr (Or.inl (same ▸ List.mem_cons_self))
    · rcases explored.covers other member with waiting | onPath | done
      · exact Or.inl ((List.mem_erase_of_ne same).mpr waiting)
      · exact Or.inr (Or.inl (List.mem_cons_of_mem child onPath))
      · exact Or.inr (Or.inr done)

/-- A depth-first pass that reports its closing edges finishes every node it saw. -/
theorem exists_explored_sweep
    (explored : graph.Explored closed unseen branches finished)
    (reported : ∀ cycle ∈ (graph.sweep unseen branches).2, ∀ source target,
      closingEdge cycle = (some source, some target) → closed source target) :
    ∃ later, graph.Explored closed (graph.sweep unseen branches).1 [] later := by
  revert finished
  induction unseen, branches using sweep.induct graph with
  | case1 unseen =>
      intro finished explored
      rw [sweep_nil]
      exact ⟨finished, explored⟩
  | case2 unseen node branches ih =>
      intro finished explored
      rw [sweep_pop] at reported ⊢
      exact ih reported explored.pop
  | case3 unseen node child pending branches rest inside ih =>
      intro finished explored
      rw [sweep_push inside] at reported ⊢
      exact ih reported explored.push
  | case4 unseen node child pending branches rest outside _ _ _ ih =>
      intro finished explored
      by_cases onPath : child ∈ pathOf (⟨node, pending⟩ :: branches)
      · rw [sweep_back outside onPath] at reported ⊢
        obtain ⟨closes, others⟩ := List.forall_mem_cons.mp reported
        have closing := closes node child (closingEdge_suffixFrom onPath)
        exact ih others (explored.look (Or.inl closing))
      · rw [sweep_skip outside onPath] at reported ⊢
        -- What is neither unseen nor on the path has finished.
        refine ih reported (explored.look (Or.inr ?_))
        obtain ⟨⟨done, successors, -⟩, -⟩ := explored.suspended
        have successor : child ∈ graph.internalSuccessors node := by
          rw [successors]
          exact List.mem_append_right done List.mem_cons_self
        rcases explored.covers child (graph.mem_nodes_of_mem_internalSuccessors successor) with
          waiting | listed | early
        · exact absurd waiting outside
        · exact absurd (List.mem_reverse.mpr listed) onPath
        · exact early

private theorem exists_explored_sweepRoots (roots : List String)
    (explored : graph.Explored closed unseen [] finished)
    (reported : ∀ cycle ∈ graph.sweepRoots unseen roots, ∀ source target,
      closingEdge cycle = (some source, some target) → closed source target) :
    ∃ later, graph.Explored closed (graph.unseenAfter unseen roots) [] later := by
  induction roots generalizing unseen finished with
  | nil => exact ⟨finished, explored⟩
  | cons root roots ih =>
      rw [sweepRoots] at reported
      rw [unseenAfter]
      by_cases member : root ∈ unseen
      · rw [if_pos member] at reported ⊢
        obtain ⟨former, latter⟩ := List.forall_mem_append.mp reported
        have started : graph.Explored closed (unseen.erase root)
            [⟨root, graph.internalSuccessors root⟩] finished := by
          refine ⟨explored.order, ⟨⟨[], rfl, List.forall_mem_nil _⟩, trivial⟩,
            fun other listed => ?_⟩
          by_cases same : other = root
          · exact Or.inr (Or.inl (same ▸ List.mem_cons_self))
          · rcases explored.covers other listed with waiting | none | done
            · exact Or.inl ((List.mem_erase_of_ne same).mpr waiting)
            · cases none
            · exact Or.inr (Or.inr done)
        obtain ⟨later, ended⟩ := exists_explored_sweep started former
        exact ih ended latter
      · rw [if_neg member] at reported ⊢
        exact ih explored reported

/-- An internal edge that does not close a reported cycle. -/
def OpenEdge (graph : Graph) (closed : String → String → Prop) (source target : String) : Prop :=
  graph.HasInternalEdge source target ∧ ¬ closed source target

private theorem Finished.mem_of_openEdge (order : graph.Finished closed finished)
    (member : node ∈ finished) (edge : graph.OpenEdge closed node child) : child ∈ finished := by
  induction finished with
  | nil => cases member
  | cons latest earlier ih =>
      rcases List.mem_cons.mp member with rfl | early
      · exact List.mem_cons_of_mem _ ((order.1 child edge.1).resolve_left edge.2)
      · exact List.mem_cons_of_mem _ (ih order.2 early)

private theorem Finished.mem_of_path (order : graph.Finished closed finished)
    (member : node ∈ finished)
    (path : Relation.ReflTransGen (graph.OpenEdge closed) node child) : child ∈ finished := by
  induction path with
  | refl => exact member
  | tail _ edge ih => exact order.mem_of_openEdge ih edge

/-- No finished node is on a closed chain of open edges: the chain would lead from
the node to earlier ones only, and so to the node as an earlier one. -/
theorem Finished.not_transGen (order : graph.Finished closed finished)
    (member : node ∈ finished) : ¬ Relation.TransGen (graph.OpenEdge closed) node node := by
  induction finished with
  | nil => cases member
  | cons latest earlier ih =>
      rcases List.mem_cons.mp member with rfl | early
      · intro loop
        obtain ⟨next, edge, back⟩ := Relation.TransGen.head'_iff.mp loop
        have early := (order.1 next edge.1).resolve_left edge.2
        exact ih order.2 (order.2.mem_of_path early back) loop
      · exact ih order.2 early

end Completeness

/-- An edge that closes a reported cycle. -/
def Closes (graph : Graph) (source target : String) : Prop :=
  (some source, some target) ∈ graph.detectCycles.map closingEdge

/-- Cycle detection reports what one depth-first pass over the scanned files does. -/
theorem reports_detectCycles (graph : Graph) :
    graph.Reports graph.nodes [] (graph.unseenAfter graph.nodes graph.scanned)
      graph.detectCycles := by
  rw [detectCycles_eq_sweepRoots]
  exact (reports_sweepRoots graph.nodes_nodup (List.Subset.refl _) fun _ member => member).1

/-- The nodes that are reached from scanned files finish in an order. -/
theorem exists_finished (graph : Graph) :
    ∃ finished, graph.Finished graph.Closes finished ∧
      ∀ node, graph.Reached node → node ∈ finished := by
  have reports := graph.reports_detectCycles
  have tried := (reports_sweepRoots graph.nodes_nodup (List.Subset.refl _)
    fun (root : String) (member : root ∈ graph.scanned) => member).2
  have started : graph.Explored graph.Closes graph.nodes [] [] :=
    ⟨trivial, trivial, fun node member => Or.inl member⟩
  obtain ⟨finished, ended⟩ := exists_explored_sweepRoots graph.scanned started
    fun cycle member source target closes => List.mem_map.mpr
      ⟨cycle, graph.detectCycles_eq_sweepRoots ▸ member, closes⟩
  have done : ∀ node ∈ graph.nodes, node ∉ graph.unseenAfter graph.nodes graph.scanned →
      node ∈ finished := by
    intro node member seen
    rcases ended.covers node member with waiting | none | early
    · exact absurd waiting seen
    · cases none
    · exact early
  refine ⟨finished, ended.order, ?_⟩
  rintro node ⟨file, scanned, path⟩
  induction path with
  | refl => exact done file (graph.scanned_nodes file scanned) (tried file scanned)
  | @tail source target _ edge ih =>
      by_cases closes : graph.Closes source target
      · -- The edge leads back to the path of its time, so its target was seen.
        obtain ⟨cycle, member, same⟩ := List.mem_map.mp closes
        obtain ⟨_, _, other, -, -, seen, -⟩ := reports.closing cycle member
        cases other.symm.trans same
        exact done target (graph.edges_nodes _ edge).2 seen
      · exact ended.order.mem_of_openEdge ih ⟨edge, closes⟩

/-- A closed chain starts and ends at the same one of its nodes. -/
theorem IsClosedChain.exists_ends {graph : Graph} {chain : List String}
    (closed : graph.IsClosedChain chain) :
    ∃ node ∈ chain, chain.head? = some node ∧ chain.getLast? = some node := by
  have same := closed.closed
  match chain with
  | [] => exact absurd closed.long (by simp)
  | node :: rest => exact ⟨node, List.mem_cons_self, rfl, same.symm⟩

/-- An edge leaves every node of a chain but its last. -/
theorem exists_edge_or_last {chain : List String} {edge : String → String → Prop} {node : String}
    (linked : chain.IsChain edge) (member : node ∈ chain) :
    (∃ next, edge node next) ∨ chain.getLast? = some node := by
  induction linked with
  | nil => cases member
  | singleton only =>
      cases List.mem_singleton.mp member
      exact Or.inr rfl
  | @cons_cons first second rest step _ ih =>
      rcases List.mem_cons.mp member with rfl | later
      · exact Or.inl ⟨second, step⟩
      · rw [List.getLast?_cons_cons]
        exact ih later

/-- An internal edge leaves every node of a closed chain. -/
theorem IsClosedChain.exists_edge {graph : Graph} {chain : List String} {node : String}
    (closed : graph.IsClosedChain chain) (member : node ∈ chain) :
    ∃ next, graph.HasInternalEdge node next := by
  rcases exists_edge_or_last closed.linked member with edge | last
  · exact edge
  · match chain with
    | [] => cases member
    | [_] => exact absurd closed.long (by simp)
    | first :: second :: rest =>
        -- The last node is the first, and an edge leaves that one.
        cases closed.closed.trans last
        exact ⟨second, (List.isChain_cons_cons.mp closed.linked).1⟩

/-- A chain that ends where it begins is a way round. -/
theorem transGen_of_isChain {chain : List String} {edge : String → String → Prop}
    {node : String} (long : 2 ≤ chain.length) (starts : chain.head? = some node)
    (ends : chain.getLast? = some node) (linked : chain.IsChain edge) :
    Relation.TransGen edge node node := by
  match chain with
  | [] => cases starts
  | [_] => exact absurd long (by simp)
  | first :: second :: rest =>
      cases starts
      obtain ⟨step, others⟩ := List.isChain_cons_cons.mp linked
      have last : (second :: rest).getLast (List.cons_ne_nil _ _) = node := by
        rw [List.getLast?_cons_cons, List.getLast?_eq_some_getLast (List.cons_ne_nil _ _)] at ends
        exact Option.some.inj ends
      exact Relation.TransGen.head' step
        (List.relationReflTransGen_of_exists_isChain_cons rest others last)

/-- A chain of internal edges avoids some edges, or two of its neighbours are the ends
of one of them. -/
theorem isChain_openEdge_or {graph : Graph} {chain : List String}
    (closed : String → String → Prop) (linked : chain.IsChain graph.HasInternalEdge) :
    chain.IsChain (graph.OpenEdge closed) ∨
      ∃ source target, [source, target] <:+: chain ∧ closed source target := by
  induction linked with
  | nil => exact Or.inl .nil
  | singleton node => exact Or.inl (.singleton node)
  | @cons_cons first second rest edge _ ih =>
      by_cases closes : closed first second
      · exact Or.inr ⟨first, second, ⟨[], rest, rfl⟩, closes⟩
      · rcases ih with avoids | ⟨source, target, inside, uses⟩
        · exact Or.inl (.cons_cons ⟨edge, closes⟩ avoids)
        · exact Or.inr ⟨source, target, inside.trans (List.suffix_cons _ _).isInfix, uses⟩

/-- What is reported are cycles, closed by distinct edges, and every closed chain of
internal edges that is reached from the scanned files uses one of these edges. So
nothing is reported if and only if there is no such chain. -/
theorem detectCycles_witness (graph : Graph) :
    (∀ cycle ∈ graph.detectCycles, graph.IsCycle cycle) ∧
    (graph.detectCycles.map closingEdge).Nodup ∧
    (∀ chain, graph.IsClosedChain chain → (∀ node ∈ chain, graph.Reached node) →
      ∃ source target, [source, target] <:+: chain ∧
        (some source, some target) ∈ graph.detectCycles.map closingEdge) ∧
    (graph.detectCycles = [] ↔
      ∀ node, graph.Reached node → ¬ Relation.TransGen graph.HasInternalEdge node node) := by
  have reports := graph.reports_detectCycles
  obtain ⟨finished, order, done⟩ := graph.exists_finished
  refine ⟨reports.cycle, reports.distinct, fun chain closed reached => ?_,
    fun none node reached loop => ?_, fun acyclic => ?_⟩
  · obtain ⟨node, member, starts, ends⟩ := closed.exists_ends
    rcases isChain_openEdge_or graph.Closes closed.linked with avoids | uses
    · exact absurd (transGen_of_isChain closed.long starts ends avoids)
        (order.not_transGen (done node (reached node member)))
    · exact uses
  · have unreported : ∀ source target, ¬ graph.Closes source target := by
      intro source target closes
      rw [Closes, none] at closes
      cases closes
    refine order.not_transGen (done node reached) (Relation.TransGen.mono ?_ _ _ loop)
    exact fun source target edge => ⟨edge, unreported source target⟩
  · by_contra nonempty
    obtain ⟨cycle, member⟩ := List.exists_mem_of_ne_nil _ nonempty
    have isCycle := reports.cycle cycle member
    obtain ⟨source, target, closes, -, -, -, reached⟩ := reports.closing cycle member
    have ends : cycle.getLast? = some target := congrArg Prod.snd closes
    exact acyclic target reached
      (transGen_of_isChain isCycle.long (isCycle.closed.trans ends) ends isCycle.linked)

end ModuleAtlas.Graph
