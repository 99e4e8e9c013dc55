import Mathlib.Data.List.MinMax
import Mathlib.Data.List.Rotate
import Mathlib.Data.String.Basic
import ModuleAtlas.Proofs.Graph.Cycles

/-! # The list of all cycles

A cycle can be written from each of its nodes; two ways of writing it are rotations of one
another (`ModuleAtlas.Graph.IsSameCycle`). The search from a node lists the ways back to it
through greater nodes (`ModuleAtlas.Graph.mem_cyclesFrom_iff`), so a cycle is listed where it
is written from its least node, and nowhere else. So the list of all cycles has every cycle
once, up to rotation (`ModuleAtlas.Graph.enumerates_cyclesWithin`).
-/

namespace ModuleAtlas.Graph

/-- Two closed lists run through the same nodes in the same order, from one node or
another. -/
def IsSameCycle (first second : List String) : Prop := first.dropLast ~r second.dropLast

/-- A list has every cycle of a graph, and each once up to rotation. -/
structure Enumerates (graph : Graph) (cycles : List (List String)) : Prop where
  isCycle : ∀ cycle ∈ cycles, graph.IsCycle cycle
  exists_same : ∀ cycle, graph.IsCycle cycle → ∃ listed ∈ cycles, IsSameCycle listed cycle
  apart : cycles.Pairwise fun first second => ¬ IsSameCycle first second

section Rotation

/-- A rotation exchanges the two parts of a list. -/
theorem exists_append_of_isRotated {first second : List String} (rotated : first ~r second) :
    ∃ front back, first = front ++ back ∧ second = back ++ front := by
  obtain ⟨count, bound, rfl⟩ := List.isRotated_iff_mod.mp rotated
  exact ⟨first.take count, first.drop count, (List.take_append_drop count first).symm,
    List.rotate_eq_drop_append_take bound⟩

/-- A list without repetition has one rotation that starts with a given member. -/
theorem eq_of_isRotated_of_head? {first second : List String} (rotated : first ~r second)
    (simple : first.Nodup) (same : first.head? = second.head?) : first = second := by
  obtain ⟨front, back, rfl, rfl⟩ := exists_append_of_isRotated rotated
  match front, back with
  | [], back => rw [List.nil_append, List.append_nil]
  | front, [] => rw [List.nil_append, List.append_nil]
  | one :: front, other :: back =>
      rw [List.cons_append, List.cons_append, List.head?_cons, List.head?_cons] at same
      cases same
      have apart := (List.nodup_append.mp simple).2.2
      exact absurd rfl (apart one List.mem_cons_self one List.mem_cons_self)

end Rotation

section Writing

variable {graph : Graph} {cycle : List String} {start : String}

/-- A cycle is a list without repetition, closed by its first node. -/
theorem isCycle_iff {inner : List String} :
    graph.IsCycle (start :: inner ++ [start]) ↔
      (start :: inner ++ [start]).IsChain graph.HasInternalEdge ∧ (start :: inner).Nodup := by
  constructor
  · intro isCycle
    have simple := isCycle.simple
    rw [List.dropLast_concat] at simple
    exact ⟨isCycle.linked, simple⟩
  · rintro ⟨linked, simple⟩
    refine ⟨⟨by simp, ?_, linked⟩, ?_⟩
    · rw [List.getLast?_concat]
      rfl
    · rw [List.dropLast_concat]
      exact simple

/-- A cycle returns to the node it starts at. -/
theorem IsCycle.exists_eq (isCycle : graph.IsCycle cycle) :
    ∃ start inner, cycle = start :: inner ++ [start] := by
  have closed := isCycle.closed
  rcases List.eq_nil_or_concat' cycle with rfl | ⟨opened, last, rfl⟩
  · exact absurd isCycle.long (by simp)
  · match opened with
    | [] => exact absurd isCycle.long (by simp)
    | start :: inner =>
        rw [List.getLast?_concat] at closed
        obtain rfl : start = last := Option.some.inj closed
        exact ⟨start, inner, rfl⟩

/-- A cycle can be written from each of its nodes. -/
theorem IsCycle.rotate {front back : List String} {other : String}
    (isCycle : graph.IsCycle (start :: front ++ other :: back ++ [start])) :
    graph.IsCycle (other :: back ++ start :: front ++ [other]) := by
  have whole : start :: front ++ other :: back ++ [start] =
      start :: (front ++ other :: back) ++ [start] := by
    simp only [List.cons_append, List.append_assoc]
  rw [whole, isCycle_iff] at isCycle
  obtain ⟨linked, simple⟩ := isCycle
  have before : (other :: back ++ [start]).IsChain graph.HasInternalEdge := by
    apply linked.suffix
    exact ⟨start :: front, by simp only [List.cons_append, List.append_assoc]⟩
  have behind : ([start] ++ (front ++ [other])).IsChain graph.HasInternalEdge := by
    apply linked.prefix
    exact ⟨back ++ [start], by simp only [List.cons_append, List.nil_append, List.append_assoc]⟩
  have turned : other :: back ++ start :: front ++ [other] =
      other :: (back ++ start :: front) ++ [other] := by
    simp only [List.cons_append, List.append_assoc]
  rw [turned, isCycle_iff]
  constructor
  · have joined := before.append_overlap behind (List.cons_ne_nil start [])
    simpa only [List.cons_append, List.append_assoc, List.nil_append] using joined
  · have swapped : (start :: front ++ other :: back).Perm (other :: back ++ start :: front) :=
      List.perm_append_comm
    exact swapped.nodup_iff.mp simple

/-- A cycle is written from its least node. -/
def StartsLeast (cycle : List String) : Prop :=
  ∃ start, cycle.head? = some start ∧ ∀ node ∈ cycle, start ≤ node

/-- Every cycle can be written from its least node. -/
theorem IsCycle.exists_startsLeast (isCycle : graph.IsCycle cycle) :
    ∃ written, graph.IsCycle written ∧ StartsLeast written ∧ IsSameCycle written cycle := by
  obtain ⟨start, inner, rfl⟩ := isCycle.exists_eq
  have long : 0 < (start :: inner).length := Nat.succ_pos _
  obtain ⟨least, isLeast⟩ : ∃ least, least = List.minimum_of_length_pos long := ⟨_, rfl⟩
  have member : least ∈ start :: inner := isLeast ▸ List.minimum_of_length_pos_mem long
  have below : ∀ node ∈ start :: inner, least ≤ node :=
    fun node listed => isLeast ▸ List.minimum_of_length_pos_le_of_mem listed long
  obtain ⟨front, back, split⟩ := List.append_of_mem member
  match front with
  | [] =>
      cases split
      refine ⟨start :: inner ++ [start], isCycle, ⟨start, rfl, fun node listed => ?_⟩,
        List.IsRotated.refl _⟩
      rcases List.mem_append.mp listed with early | last
      · exact below node early
      · exact (List.mem_singleton.mp last).ge
  | first :: front =>
      rw [List.cons_append] at split
      obtain ⟨rfl, rfl⟩ := List.cons.inj split
      refine ⟨_, isCycle.rotate, ⟨least, rfl, fun node listed => ?_⟩, ?_⟩
      · apply below node
        simp only [List.mem_append, List.mem_cons, List.not_mem_nil, or_false] at listed ⊢
        tauto
      · unfold IsSameCycle
        rw [List.dropLast_concat, List.dropLast_concat]
        exact List.isRotated_append

/-- There is one way to write a cycle from its least node. -/
theorem StartsLeast.eq_of_isSameCycle {first second : List String} (early : graph.IsCycle first)
    (late : graph.IsCycle second) (least : StartsLeast first) (other : StartsLeast second)
    (same : IsSameCycle first second) : first = second := by
  obtain ⟨start, inner, rfl⟩ := early.exists_eq
  obtain ⟨head, tail, rfl⟩ := late.exists_eq
  obtain ⟨_, first, below⟩ := least
  obtain ⟨_, second, under⟩ := other
  cases first
  cases second
  unfold IsSameCycle at same
  rw [List.dropLast_concat, List.dropLast_concat] at same
  have heads : start = head := by
    apply le_antisymm
    · exact below head (List.mem_append_left _ (same.perm.mem_iff.mpr List.mem_cons_self))
    · exact under start (List.mem_append_left _ (same.perm.mem_iff.mp List.mem_cons_self))
  subst heads
  rw [eq_of_isRotated_of_head? same (isCycle_iff.mp early).2 rfl]

end Writing

section Search

variable {graph : Graph} {start node : String} {path rest : List String} {limit : Nat}

/-- Nodes that lead from a node back to the start: all greater than the start, none of them
twice and none on the path before them. -/
structure IsWayBack (graph : Graph) (start : String) (path : List String) (node : String)
    (rest : List String) : Prop where
  linked : (node :: rest ++ [start]).IsChain graph.HasInternalEdge
  greater : ∀ other ∈ rest, start < other
  simple : rest.Nodup
  apart : ∀ other ∈ rest, other ∉ path ++ [node]

private theorem IsWayBack.cons {next : String} (edge : graph.HasInternalEdge node next)
    (above : start < next) (unmet : next ∉ path ++ [node])
    (back : graph.IsWayBack start (path ++ [node]) next rest) :
    graph.IsWayBack start path node (next :: rest) := by
  constructor
  case linked => exact back.linked.cons_cons edge
  case greater => exact List.forall_mem_cons.mpr ⟨above, back.greater⟩
  case simple =>
    refine List.nodup_cons.mpr ⟨fun again => ?_, back.simple⟩
    exact back.apart next again (List.mem_append_right _ (List.mem_singleton_self next))
  case apart =>
    refine List.forall_mem_cons.mpr ⟨unmet, fun other listed met => ?_⟩
    exact back.apart other listed (List.mem_append_left _ met)

private theorem IsWayBack.tail {next : String}
    (back : graph.IsWayBack start path node (next :: rest)) :
    graph.HasInternalEdge node next ∧ start < next ∧ next ∉ path ++ [node] ∧
      graph.IsWayBack start (path ++ [node]) next rest := by
  obtain ⟨edge, linked⟩ := List.isChain_cons_cons.mp back.linked
  obtain ⟨above, greater⟩ := List.forall_mem_cons.mp back.greater
  obtain ⟨unlisted, simple⟩ := List.nodup_cons.mp back.simple
  obtain ⟨unmet, apart⟩ := List.forall_mem_cons.mp back.apart
  refine ⟨edge, above, unmet, linked, greater, simple, fun other listed met => ?_⟩
  rcases List.mem_append.mp met with early | same
  · exact apart other listed early
  · exact unlisted (List.mem_singleton.mp same ▸ listed)

/-- The search lists the ways back to the start, each behind the path that it goes on. -/
theorem mem_cyclesFrom_iff {cycle : List String} (isNode : node ∈ graph.nodes) :
    cycle ∈ graph.cyclesFrom start path node limit ↔
      ∃ rest, rest.length < limit ∧ graph.IsWayBack start path node rest ∧
        cycle = path ++ node :: rest ++ [start] := by
  induction limit generalizing path node with
  | zero =>
      simp only [cyclesFrom, List.not_mem_nil, Nat.not_lt_zero, false_and, exists_false]
  | succ limit ih =>
      rw [cyclesFrom, List.mem_flatMap]
      constructor
      · rintro ⟨next, successor, found⟩
        have edge := (mem_internalSuccessors isNode).mp successor
        have nextNode := (graph.edges_nodes _ edge).2
        split at found
        · next closes =>
            rw [List.mem_singleton] at found
            subst closes found
            refine ⟨[], Nat.succ_pos limit, ⟨?_, by simp, List.nodup_nil, by simp⟩, by simp⟩
            exact List.isChain_pair.mpr edge
        · split at found
          · next goesOn =>
              simp only [Bool.and_eq_true, decide_eq_true_eq] at goesOn
              obtain ⟨rest, short, back, rfl⟩ := (ih nextNode).mp found
              refine ⟨next :: rest, Nat.succ_lt_succ short, ?_, by simp⟩
              exact IsWayBack.cons edge goesOn.1 goesOn.2 back
          · cases found
      · rintro ⟨rest, short, back, rfl⟩
        match rest with
        | [] =>
            have edge := List.isChain_pair.mp back.linked
            refine ⟨start, (mem_internalSuccessors isNode).mpr edge, ?_⟩
            rw [if_pos rfl]
            simp only [List.append_assoc, List.cons_append, List.nil_append, List.mem_cons,
              List.not_mem_nil, or_false]
        | next :: rest =>
            obtain ⟨edge, above, unmet, back⟩ := back.tail
            refine ⟨next, (mem_internalSuccessors isNode).mpr edge, ?_⟩
            have goesOn : (start < next && next ∉ path ++ [node]) = true := by
              simp only [Bool.and_eq_true, decide_eq_true_eq]
              exact ⟨above, unmet⟩
            rw [if_neg above.ne', if_pos goesOn, ih (graph.edges_nodes _ edge).2]
            exact ⟨rest, Nat.lt_of_succ_lt_succ short, back, by simp⟩

/-- What is listed for a successor goes on with that successor. -/
theorem exists_eq_of_mem_branch {next : String} {cycle : List String} (isNode : next ∈ graph.nodes)
    (listed : cycle ∈ if next = start then [path ++ [node] ++ [start]]
      else if start < next && next ∉ path ++ [node] then
        graph.cyclesFrom start (path ++ [node]) next limit else []) :
    ∃ behind, cycle = path ++ [node] ++ next :: behind := by
  split at listed
  · next closes =>
      rw [List.mem_singleton] at listed
      exact ⟨[], closes ▸ listed⟩
  · split at listed
    · obtain ⟨rest, -, -, rfl⟩ := (mem_cyclesFrom_iff isNode).mp listed
      exact ⟨rest ++ [start], by simp⟩
    · cases listed

private theorem nodup_cyclesFrom (isNode : node ∈ graph.nodes) :
    (graph.cyclesFrom start path node limit).Nodup := by
  induction limit generalizing path node with
  | zero => exact List.nodup_nil
  | succ limit ih =>
      have nodes : ∀ next ∈ graph.internalSuccessors node, next ∈ graph.nodes :=
        fun next successor => graph.mem_nodes_of_mem_internalSuccessors successor
      rw [cyclesFrom, List.nodup_flatMap]
      constructor
      · intro next successor
        split
        · exact List.nodup_singleton _
        · split
          · exact ih (nodes next successor)
          · exact List.nodup_nil
      · -- What is listed for two successors differs behind the path.
        apply (nodup_internalSuccessors isNode).imp_of_mem
        intro first second early late different cycle one other
        obtain ⟨behind, rfl⟩ := exists_eq_of_mem_branch (nodes first early) one
        obtain ⟨after, same⟩ := exists_eq_of_mem_branch (nodes second late) other
        exact different (List.cons.inj (List.append_cancel_left same)).1

private theorem isCycle_of_isWayBack (back : graph.IsWayBack start [] start rest) :
    graph.IsCycle (start :: rest ++ [start]) ∧ StartsLeast (start :: rest ++ [start]) := by
  constructor
  · rw [isCycle_iff]
    refine ⟨back.linked, List.nodup_cons.mpr ⟨fun again => ?_, back.simple⟩⟩
    exact lt_irrefl start (back.greater start again)
  · refine ⟨start, rfl, fun node listed => ?_⟩
    rcases List.mem_append.mp listed with early | last
    · rcases List.mem_cons.mp early with rfl | later
      · exact le_refl node
      · exact (back.greater node later).le
    · exact (List.mem_singleton.mp last).ge

private theorem IsCycle.isWayBack (isCycle : graph.IsCycle (start :: rest ++ [start]))
    (least : StartsLeast (start :: rest ++ [start])) : graph.IsWayBack start [] start rest := by
  obtain ⟨linked, simple⟩ := isCycle_iff.mp isCycle
  obtain ⟨unlisted, simple⟩ := List.nodup_cons.mp simple
  obtain ⟨_, starts, below⟩ := least
  cases starts
  constructor
  case linked => exact linked
  case greater =>
    intro other listed
    apply lt_of_le_of_ne (below other (by simp [listed]))
    exact fun same => unlisted (same ▸ listed)
  case simple => exact simple
  case apart =>
    intro other listed same
    exact unlisted (List.mem_singleton.mp same ▸ listed)

/-- The cycles that are listed are those that are written from their least node and have
few enough nodes. -/
theorem mem_cyclesWithin_iff {cycle : List String} :
    cycle ∈ graph.cyclesWithin limit ↔
      graph.IsCycle cycle ∧ StartsLeast cycle ∧ cycle.length ≤ limit + 1 := by
  rw [cyclesWithin, List.mem_mergeSort, List.mem_flatMap]
  constructor
  · rintro ⟨start, isNode, found⟩
    obtain ⟨rest, short, back, rfl⟩ := (mem_cyclesFrom_iff isNode).mp found
    obtain ⟨isCycle, least⟩ := isCycle_of_isWayBack back
    refine ⟨isCycle, least, ?_⟩
    simp only [List.nil_append, List.length_append, List.length_cons, List.length_nil]
    omega
  · rintro ⟨isCycle, least, short⟩
    obtain ⟨start, rest, rfl⟩ := isCycle.exists_eq
    obtain ⟨next, edge⟩ := isCycle.toIsClosedChain.exists_edge
      (List.mem_cons_self (l := rest ++ [start]))
    have isNode := (graph.edges_nodes _ edge).1
    refine ⟨start, isNode, (mem_cyclesFrom_iff isNode).mpr ⟨rest, ?_, isCycle.isWayBack least, rfl⟩⟩
    simp only [List.length_append, List.length_cons, List.length_nil] at short
    omega

private theorem nodup_cyclesWithin (graph : Graph) (limit : Nat) :
    (graph.cyclesWithin limit).Nodup := by
  rw [cyclesWithin, (List.mergeSort_perm _ _).nodup_iff, List.nodup_flatMap]
  constructor
  · exact fun start isNode => nodup_cyclesFrom isNode
  · apply graph.nodes_nodup.imp_of_mem
    intro first second early late different cycle one other
    obtain ⟨rest, -, -, rfl⟩ := (mem_cyclesFrom_iff early).mp one
    obtain ⟨tail, -, -, same⟩ := (mem_cyclesFrom_iff late).mp other
    exact different (List.cons.inj same).1

/-- A cycle has no more nodes than its graph. -/
theorem IsCycle.length_le {cycle : List String} (isCycle : graph.IsCycle cycle) :
    cycle.length ≤ graph.nodes.length + 1 := by
  have inside : cycle.dropLast ⊆ graph.nodes := by
    intro node listed
    obtain ⟨next, edge⟩ := isCycle.toIsClosedChain.exists_edge (List.mem_of_mem_dropLast listed)
    exact (graph.edges_nodes _ edge).1
  have short := isCycle.simple.length_le_of_subset inside
  rw [List.length_dropLast] at short
  omega

/-- All cycles are listed, each once up to rotation. -/
theorem enumerates_cyclesWithin (graph : Graph) :
    graph.Enumerates (graph.cyclesWithin graph.nodes.length) := by
  constructor
  case isCycle => exact fun cycle listed => (mem_cyclesWithin_iff.mp listed).1
  case exists_same =>
    intro cycle isCycle
    obtain ⟨written, again, least, same⟩ := isCycle.exists_startsLeast
    exact ⟨written, mem_cyclesWithin_iff.mpr ⟨again, least, again.length_le⟩, same⟩
  case apart =>
    apply (graph.nodup_cyclesWithin _).imp_of_mem
    intro first second early late different same
    obtain ⟨one, least, -⟩ := mem_cyclesWithin_iff.mp early
    obtain ⟨other, lowest, -⟩ := mem_cyclesWithin_iff.mp late
    exact different (StartsLeast.eq_of_isSameCycle one other least lowest same)

end Search

end ModuleAtlas.Graph
