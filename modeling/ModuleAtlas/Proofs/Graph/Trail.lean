import Mathlib.Data.List.Chain
import Mathlib.Data.List.Nodup
import ModuleAtlas.Proofs.Graph.Colours
import ModuleAtlas.Proofs.Graph.Edges

/-! # The path of a depth-first pass

The nodes of a stack of branches are a path of internal edges without repetition,
and none of them is unseen (`ModuleAtlas.Graph.Trail`). An edge back to the path
therefore closes a cycle without repetition. No edge is looked at twice: the edges
ahead of a stack leave an unseen node, or lead from a branch to one of its pending
successors (`ModuleAtlas.Graph.Ahead`), so the edges that close the reported cycles
are distinct.
-/

namespace ModuleAtlas.Graph

/-- A chain of internal edges that ends where it begins. -/
structure IsClosedChain (graph : Graph) (chain : List String) : Prop where
  long : 2 ≤ chain.length
  closed : chain.head? = chain.getLast?
  linked : chain.IsChain graph.HasInternalEdge

/-- A closed chain that repeats no node but the one that closes it. -/
structure IsCycle (graph : Graph) (chain : List String) : Prop
    extends graph.IsClosedChain chain where
  simple : chain.dropLast.Nodup

/-- The ends of the edge that closes a cycle: the last node but one and the last. -/
def closingEdge (cycle : List String) : Option String × Option String :=
  (cycle.dropLast.getLast?, cycle.getLast?)

/-- A node that internal edges lead to from a scanned file. -/
def Reached (graph : Graph) (node : String) : Prop :=
  ∃ file ∈ graph.scanned, Relation.ReflTransGen graph.HasInternalEdge file node

/-- The internal successors of a node are the ends of its internal edges. -/
theorem mem_internalSuccessors {graph : Graph} {node child : String}
    (isNode : node ∈ graph.nodes) :
    child ∈ graph.internalSuccessors node ↔ graph.HasInternalEdge node child := by
  have itself : graph.selected node = [node] := if_pos (decide_eq_true isNode)
  rw [internalSuccessors, itself]
  simp only [List.flatMap_cons, List.flatMap_nil, List.append_nil, List.mem_map, List.mem_filter,
    outEdges, HasInternalEdge, decide_eq_true_eq, Bool.not_eq_true']
  constructor
  · rintro ⟨⟨source, target, isExternal⟩, ⟨⟨member, rfl⟩, rfl⟩, rfl⟩
    exact member
  · intro member
    exact ⟨⟨node, child, false⟩, ⟨⟨member, rfl⟩, rfl⟩, rfl⟩

/-- No internal successor is listed twice. -/
theorem nodup_internalSuccessors {graph : Graph} {node : String} (isNode : node ∈ graph.nodes) :
    (graph.internalSuccessors node).Nodup := by
  have itself : graph.selected node = [node] := if_pos (decide_eq_true isNode)
  rw [internalSuccessors, itself, List.flatMap_singleton, outEdges]
  -- Edges that leave one node differ in their targets, since no ends are joined twice.
  refine List.Nodup.map_on ?_ ?_
  · intro first firstMember second secondMember same
    simp only [List.mem_filter, decide_eq_true_eq] at firstMember secondMember
    refine List.inj_on_of_nodup_map graph.edges_distinct firstMember.1.1 secondMember.1.1 ?_
    rw [Edge.ends, Edge.ends, same, firstMember.1.2, secondMember.1.2]
  · exact (List.Nodup.of_map Edge.ends graph.edges_distinct).filter _ |>.filter _

/-- The path from a node on is an end of the path. -/
theorem suffixFrom_suffix (node : String) (path : List String) : suffixFrom node path <:+ path := by
  induction path with
  | nil => exact List.suffix_rfl
  | cons first rest ih =>
      rw [suffixFrom]
      split
      · exact List.suffix_rfl
      · exact ih.trans (List.suffix_cons first rest)

/-- The path from one of its nodes on starts at that node. -/
theorem head?_suffixFrom {node : String} {path : List String} (member : node ∈ path) :
    (suffixFrom node path).head? = some node := by
  induction path with
  | nil => cases member
  | cons first rest ih =>
      rw [suffixFrom]
      split
      · next same => rw [same, List.head?_cons]
      · next different =>
          exact ih ((List.mem_cons.mp member).resolve_left fun same => different same.symm)

/-- The end of a path from a node on ends where the path ends. -/
theorem getLast?_suffixFrom {node : String} {path : List String} (member : node ∈ path) :
    (suffixFrom node path).getLast? = path.getLast? := by
  have nonempty : suffixFrom node path ≠ [] := by
    intro empty
    have head := head?_suffixFrom member
    rw [empty] at head
    cases head
  obtain ⟨before, whole⟩ := suffixFrom_suffix node path
  have last := List.getLast?_append_of_ne_nil before nonempty
  rw [whole] at last
  exact last.symm

/-- What holds of a stack of branches: its nodes are a path of internal edges from a
scanned file, none of them twice or unseen, and what is pending at a node is an end
of its successors. -/
structure Trail (graph : Graph) (unseen : List String) (branches : List Branch) : Prop where
  fresh : unseen.Nodup
  unseen_nodes : unseen ⊆ graph.nodes
  nodes : ∀ branch ∈ branches, branch.node ∈ graph.nodes
  seen : ∀ branch ∈ branches, branch.node ∉ unseen
  reached : ∀ branch ∈ branches, graph.Reached branch.node
  pending : ∀ branch ∈ branches, branch.pending <:+ graph.internalSuccessors branch.node
  distinct : (branches.map Branch.node).Nodup
  linked : (branches.map Branch.node).IsChain fun inner outer => graph.HasInternalEdge outer inner

section Exploration

variable {graph : Graph} {unseen pending : List String} {branches : List Branch}
  {node child : String}

/-- Dropping the innermost branch keeps the trail. -/
theorem Trail.pop {branch : Branch} (trail : graph.Trail unseen (branch :: branches)) :
    graph.Trail unseen branches where
  fresh := trail.fresh
  unseen_nodes := trail.unseen_nodes
  nodes other member := trail.nodes other (List.mem_cons_of_mem _ member)
  seen other member := trail.seen other (List.mem_cons_of_mem _ member)
  reached other member := trail.reached other (List.mem_cons_of_mem _ member)
  pending other member := trail.pending other (List.mem_cons_of_mem _ member)
  distinct := (List.nodup_cons.mp trail.distinct).2
  linked := trail.linked.tail

/-- Passing a pending child by keeps the trail. -/
theorem Trail.advance (trail : graph.Trail unseen (⟨node, child :: pending⟩ :: branches)) :
    graph.Trail unseen (⟨node, pending⟩ :: branches) := by
  have inner := trail.pop
  have top : ⟨node, child :: pending⟩ ∈ ⟨node, child :: pending⟩ :: branches := List.mem_cons_self
  constructor
  case fresh => exact trail.fresh
  case unseen_nodes => exact trail.unseen_nodes
  case nodes =>
      exact List.forall_mem_cons.mpr ⟨trail.nodes ⟨node, child :: pending⟩ top, inner.nodes⟩
  case seen => exact List.forall_mem_cons.mpr ⟨trail.seen ⟨node, child :: pending⟩ top, inner.seen⟩
  case reached =>
    exact List.forall_mem_cons.mpr ⟨trail.reached ⟨node, child :: pending⟩ top, inner.reached⟩
  case pending =>
    exact List.forall_mem_cons.mpr
      ⟨(List.suffix_cons child pending).trans (trail.pending _ top), inner.pending⟩
  case distinct => exact trail.distinct
  case linked => exact trail.linked

/-- A pending child is joined to its node by an internal edge. -/
theorem Trail.edge (trail : graph.Trail unseen (⟨node, child :: pending⟩ :: branches)) :
    graph.HasInternalEdge node child := by
  have top : ⟨node, child :: pending⟩ ∈ ⟨node, child :: pending⟩ :: branches := List.mem_cons_self
  rw [← mem_internalSuccessors (trail.nodes _ top)]
  exact (trail.pending _ top).subset List.mem_cons_self

/-- A child that was looked at is not pending any more. -/
theorem Trail.notMem_pending (trail : graph.Trail unseen (⟨node, child :: pending⟩ :: branches)) :
    child ∉ pending := by
  have top : ⟨node, child :: pending⟩ ∈ ⟨node, child :: pending⟩ :: branches := List.mem_cons_self
  have distinct := (trail.pending _ top).sublist.nodup
    (nodup_internalSuccessors (trail.nodes _ top))
  exact (List.nodup_cons.mp distinct).1

/-- Turning to an unseen child extends the trail by it. -/
theorem Trail.push (trail : graph.Trail unseen (⟨node, child :: pending⟩ :: branches))
    (inside : child ∈ unseen) :
    graph.Trail (unseen.erase child)
      (⟨child, graph.internalSuccessors child⟩ :: ⟨node, pending⟩ :: branches) := by
  have rest := trail.advance
  have top : (⟨node, pending⟩ : Branch) ∈ ⟨node, pending⟩ :: branches := List.mem_cons_self
  obtain ⟨file, scanned, path⟩ := rest.reached _ top
  have absent : child ∉ (⟨node, pending⟩ :: branches).map Branch.node := by
    intro listed
    obtain ⟨branch, member, same⟩ := List.mem_map.mp listed
    exact rest.seen branch member (same ▸ inside)
  constructor
  case fresh => exact trail.fresh.erase child
  case unseen_nodes => exact fun other member => trail.unseen_nodes (List.mem_of_mem_erase member)
  case nodes => exact List.forall_mem_cons.mpr ⟨trail.unseen_nodes inside, rest.nodes⟩
  case seen =>
    exact List.forall_mem_cons.mpr ⟨fun again => (trail.fresh.mem_erase_iff.mp again).1 rfl,
      fun branch member again => rest.seen branch member (List.mem_of_mem_erase again)⟩
  case reached =>
    exact List.forall_mem_cons.mpr ⟨⟨file, scanned, path.tail trail.edge⟩, rest.reached⟩
  case pending => exact List.forall_mem_cons.mpr ⟨List.suffix_rfl, rest.pending⟩
  case distinct => exact List.nodup_cons.mpr ⟨absent, rest.distinct⟩
  case linked => exact rest.linked.cons_cons trail.edge

/-- The path of a stack ends at its innermost node. -/
theorem getLast?_pathOf (branch : Branch) (branches : List Branch) :
    (pathOf (branch :: branches)).getLast? = some branch.node := by
  rw [pathOf, List.map_cons, List.getLast?_reverse, List.head?_cons]

/-- The cycle that is reported for an edge back to the path is closed by that edge. -/
theorem closingEdge_suffixFrom (onPath : child ∈ pathOf (⟨node, pending⟩ :: branches)) :
    closingEdge (suffixFrom child (pathOf (⟨node, pending⟩ :: branches)) ++ [child]) =
      (some node, some child) := by
  rw [closingEdge, List.dropLast_concat, List.getLast?_concat, getLast?_suffixFrom onPath,
    getLast?_pathOf]

private theorem Trail.isCycle (trail : graph.Trail unseen (⟨node, child :: pending⟩ :: branches))
    (onPath : child ∈ pathOf (⟨node, pending⟩ :: branches)) :
    graph.IsCycle (suffixFrom child (pathOf (⟨node, pending⟩ :: branches)) ++ [child]) := by
  have rest := trail.advance
  have suffix := suffixFrom_suffix child (pathOf (⟨node, pending⟩ :: branches))
  have head := head?_suffixFrom onPath
  have last := getLast?_suffixFrom onPath
  rw [getLast?_pathOf] at last
  refine ⟨⟨?long, ?closed, ?linked⟩, ?simple⟩
  case long =>
    have nonempty := List.length_pos_of_mem (List.mem_of_mem_head? (Option.mem_def.mpr head))
    rw [List.length_append, List.length_singleton]
    omega
  case closed =>
    rw [List.head?_append, head, List.getLast?_concat]
    rfl
  case linked =>
    have linked : (pathOf (⟨node, pending⟩ :: branches)).IsChain graph.HasInternalEdge :=
      List.isChain_reverse.mpr rest.linked
    refine (linked.suffix suffix).append (List.isChain_singleton child) ?_
    intro inner isLast outer isHead
    rw [last] at isLast
    cases isLast
    cases isHead
    exact trail.edge
  case simple =>
    rw [List.dropLast_concat]
    exact suffix.sublist.nodup (List.nodup_reverse.mpr rest.distinct)

/-- An edge that is still to be looked at. -/
def Ahead (unseen : List String) (branches : List Branch) (source target : String) : Prop :=
  source ∈ unseen ∨ ∃ branch ∈ branches, branch.node = source ∧ target ∈ branch.pending

/-- An edge that is ahead of the outer branches is ahead of the whole stack. -/
theorem Ahead.of_pop {branch : Branch} {source target : String}
    (ahead : Ahead unseen branches source target) :
    Ahead unseen (branch :: branches) source target :=
  ahead.imp_right fun ⟨other, member, leaves⟩ => ⟨other, List.mem_cons_of_mem _ member, leaves⟩

/-- An edge that is ahead behind a pending child was ahead before it. -/
theorem Ahead.of_advance {source target : String}
    (ahead : Ahead unseen (⟨node, pending⟩ :: branches) source target) :
    Ahead unseen (⟨node, child :: pending⟩ :: branches) source target := by
  rcases ahead with waiting | ⟨branch, member, leaves, listed⟩
  · exact Or.inl waiting
  · rcases List.mem_cons.mp member with rfl | outer
    · exact Or.inr ⟨_, List.mem_cons_self, leaves, List.mem_cons_of_mem _ listed⟩
    · exact Or.inr ⟨branch, List.mem_cons_of_mem _ outer, leaves, listed⟩

/-- An edge that is ahead once a child is seen was ahead before. -/
theorem Ahead.of_push {source target : String} (inside : child ∈ unseen)
    (ahead : Ahead (unseen.erase child)
      (⟨child, graph.internalSuccessors child⟩ :: branches) source target) :
    Ahead unseen branches source target := by
  rcases ahead with waiting | ⟨branch, member, leaves, listed⟩
  · exact Or.inl (List.mem_of_mem_erase waiting)
  · rcases List.mem_cons.mp member with rfl | outer
    · exact Or.inl (leaves ▸ inside)
    · exact Or.inr ⟨branch, outer, leaves, listed⟩

/-- An edge that was looked at is not ahead any more. -/
theorem Trail.not_ahead (trail : graph.Trail unseen (⟨node, child :: pending⟩ :: branches)) :
    ¬ Ahead unseen (⟨node, pending⟩ :: branches) node child := by
  rintro (waiting | ⟨branch, member, leaves, listed⟩)
  · exact trail.seen ⟨node, child :: pending⟩ List.mem_cons_self waiting
  · rcases List.mem_cons.mp member with rfl | outer
    · exact trail.notMem_pending listed
    · exact (List.nodup_cons.mp trail.distinct).1 (List.mem_map.mpr ⟨branch, outer, leaves⟩)

/-- What a depth-first pass reports: cycles, closed by distinct edges that were ahead
and whose ends are no longer unseen when it ends. -/
structure Reports (graph : Graph) (unseen : List String) (branches : List Branch)
    (left : List String) (cycles : List (List String)) : Prop where
  sublist : left.Sublist unseen
  cycle : ∀ cycle ∈ cycles, graph.IsCycle cycle
  closing : ∀ cycle ∈ cycles, ∃ source target, closingEdge cycle = (some source, some target) ∧
    Ahead unseen branches source target ∧ source ∉ left ∧ target ∉ left ∧ graph.Reached target
  distinct : (cycles.map closingEdge).Nodup

/-- What is reported of less unseen and fewer edges ahead is reported of more. -/
theorem Reports.mono {fewer left : List String} {inner : List Branch} {cycles : List (List String)}
    (reports : graph.Reports fewer inner left cycles) (fresh : fewer.Sublist unseen)
    (ahead : ∀ source target, Ahead fewer inner source target →
      Ahead unseen branches source target) :
    graph.Reports unseen branches left cycles := by
  refine ⟨reports.sublist.trans fresh, reports.cycle, fun cycle member => ?_, reports.distinct⟩
  obtain ⟨source, target, closes, before, after⟩ := reports.closing cycle member
  exact ⟨source, target, closes, ahead source target before, after⟩

private theorem Reports.back {left : List String} {cycles : List (List String)}
    (reports : graph.Reports unseen (⟨node, pending⟩ :: branches) left cycles)
    (trail : graph.Trail unseen (⟨node, child :: pending⟩ :: branches)) (outside : child ∉ unseen)
    (onPath : child ∈ pathOf (⟨node, pending⟩ :: branches)) :
    graph.Reports unseen (⟨node, child :: pending⟩ :: branches) left
      ((suffixFrom child (pathOf (⟨node, pending⟩ :: branches)) ++ [child]) :: cycles) := by
  have closes := closingEdge_suffixFrom onPath
  have wider : graph.Reports unseen (⟨node, child :: pending⟩ :: branches) left cycles :=
    reports.mono (List.Sublist.refl unseen) fun _ _ => Ahead.of_advance
  have top : ⟨node, child :: pending⟩ ∈ ⟨node, child :: pending⟩ :: branches := List.mem_cons_self
  obtain ⟨file, scanned, path⟩ := trail.reached _ top
  refine ⟨reports.sublist, List.forall_mem_cons.mpr ⟨trail.isCycle onPath, reports.cycle⟩,
    List.forall_mem_cons.mpr ⟨⟨node, child, closes, Or.inr ⟨_, top, rfl, List.mem_cons_self⟩,
      fun late => trail.seen _ top (reports.sublist.subset late),
      fun late => outside (reports.sublist.subset late), file, scanned, path.tail trail.edge⟩,
      wider.closing⟩, ?_⟩
  rw [List.map_cons, List.nodup_cons, closes]
  refine ⟨fun again => ?_, reports.distinct⟩
  obtain ⟨cycle, member, same⟩ := List.mem_map.mp again
  obtain ⟨source, target, other, ahead, -⟩ := reports.closing cycle member
  cases other.symm.trans same
  exact trail.not_ahead ahead

/-- A depth-first pass from a trail reports what `Reports` says of it. -/
theorem reports_sweep (trail : graph.Trail unseen branches) :
    graph.Reports unseen branches (graph.sweep unseen branches).1
      (graph.sweep unseen branches).2 := by
  induction unseen, branches using sweep.induct graph with
  | case1 unseen =>
      rw [sweep_nil]
      exact ⟨List.Sublist.refl unseen, List.forall_mem_nil _, List.forall_mem_nil _, List.nodup_nil⟩
  | case2 unseen node branches ih =>
      rw [sweep_pop]
      exact (ih trail.pop).mono (List.Sublist.refl unseen) fun _ _ => Ahead.of_pop
  | case3 unseen node child pending branches rest inside ih =>
      rw [sweep_push inside]
      exact (ih (trail.push inside)).mono List.erase_sublist
        fun _ _ ahead => (ahead.of_push inside).of_advance
  | case4 unseen node child pending branches rest outside _ _ _ ih =>
      have reports := ih trail.advance
      by_cases onPath : child ∈ pathOf (⟨node, pending⟩ :: branches)
      · rw [sweep_back outside onPath]
        exact reports.back trail outside onPath
      · rw [sweep_skip outside onPath]
        exact reports.mono (List.Sublist.refl unseen) fun _ _ => Ahead.of_advance

/-- The nodes that are still unseen after roots were tried in turn. -/
def unseenAfter (graph : Graph) (unseen : List String) : List String → List String
  | [] => unseen
  | root :: roots =>
      if root ∈ unseen then
        graph.unseenAfter
          (graph.sweep (unseen.erase root) [⟨root, graph.internalSuccessors root⟩]).1 roots
      else graph.unseenAfter unseen roots

/-- A scanned file still unseen starts a trail. -/
theorem trail_root {root : String} (fresh : unseen.Nodup) (inside : unseen ⊆ graph.nodes)
    (member : root ∈ unseen) (scanned : root ∈ graph.scanned) :
    graph.Trail (unseen.erase root) [⟨root, graph.internalSuccessors root⟩] where
  fresh := fresh.erase root
  unseen_nodes _ listed := inside (List.mem_of_mem_erase listed)
  nodes := List.forall_mem_singleton.mpr (inside member)
  seen := List.forall_mem_singleton.mpr fun again => (fresh.mem_erase_iff.mp again).1 rfl
  reached := List.forall_mem_singleton.mpr ⟨root, scanned, .refl⟩
  pending := List.forall_mem_singleton.mpr List.suffix_rfl
  distinct := List.nodup_singleton root
  linked := List.isChain_singleton root

/-- What one root reports and what the roots after it report. -/
theorem Reports.append {middle left : List String} {first second : List (List String)}
    (former : graph.Reports unseen [] middle first) (latter : graph.Reports middle [] left second) :
    graph.Reports unseen [] left (first ++ second) := by
  have wider : graph.Reports unseen [] left second := latter.mono former.sublist
    fun source target ahead => ahead.imp_left fun waiting => former.sublist.subset waiting
  refine ⟨wider.sublist, List.forall_mem_append.mpr ⟨former.cycle, latter.cycle⟩,
    List.forall_mem_append.mpr ⟨fun cycle member => ?_, wider.closing⟩, ?_⟩
  · obtain ⟨source, target, closes, ahead, sourceSeen, targetSeen, reached⟩ :=
      former.closing cycle member
    exact ⟨source, target, closes, ahead, fun late => sourceSeen (latter.sublist.subset late),
      fun late => targetSeen (latter.sublist.subset late), reached⟩
  · rw [List.map_append]
    refine former.distinct.append latter.distinct fun edge early late => ?_
    obtain ⟨cycle, member, rfl⟩ := List.mem_map.mp early
    obtain ⟨other, otherMember, same⟩ := List.mem_map.mp late
    obtain ⟨source, target, closes, -, seen, -⟩ := former.closing cycle member
    obtain ⟨_, _, again, waiting | ⟨_, none, _⟩, -⟩ := latter.closing other otherMember
    · cases again.symm.trans (same.trans closes)
      exact seen waiting
    · cases none

/-- Roots that are tried in turn report cycles as one pass does, and none of them is
unseen in the end. -/
theorem reports_sweepRoots {roots : List String} (fresh : unseen.Nodup)
    (inside : unseen ⊆ graph.nodes) (scanned : ∀ root ∈ roots, root ∈ graph.scanned) :
    graph.Reports unseen [] (graph.unseenAfter unseen roots) (graph.sweepRoots unseen roots) ∧
      ∀ root ∈ roots, root ∉ graph.unseenAfter unseen roots := by
  induction roots generalizing unseen with
  | nil =>
      rw [sweepRoots, unseenAfter]
      exact ⟨⟨List.Sublist.refl unseen, List.forall_mem_nil _, List.forall_mem_nil _,
        List.nodup_nil⟩, List.forall_mem_nil _⟩
  | cons root roots ih =>
      have others := fun other member => scanned other (List.mem_cons_of_mem root member)
      rw [sweepRoots, unseenAfter]
      by_cases member : root ∈ unseen
      · rw [if_pos member, if_pos member]
        have former := reports_sweep
          (trail_root fresh inside member (scanned root List.mem_cons_self))
        obtain ⟨latter, tried⟩ := ih (former.sublist.nodup (fresh.erase root))
          (fun other late => inside (List.mem_of_mem_erase (former.sublist.subset late))) others
        refine ⟨Reports.append (former.mono List.erase_sublist fun _ _ => Ahead.of_push member)
          latter, List.forall_mem_cons.mpr ⟨fun late => ?_, tried⟩⟩
        have early := former.sublist.subset (latter.sublist.subset late)
        exact (fresh.mem_erase_iff.mp early).1 rfl
      · rw [if_neg member, if_neg member]
        obtain ⟨reports, tried⟩ := ih fresh inside others
        exact ⟨reports, List.forall_mem_cons.mpr
          ⟨fun late => member (reports.sublist.subset late), tried⟩⟩

end Exploration

end ModuleAtlas.Graph
