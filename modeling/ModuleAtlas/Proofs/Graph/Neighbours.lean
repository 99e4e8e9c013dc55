import ModuleAtlas.Graph.Query
import ModuleAtlas.Proofs.Graph.Cycles

/-! # Neighbours in a reported cycle

Two files are neighbours in a cycle if one directly follows the other, where the first node of
the list is taken to follow its last (`ModuleAtlas.Graph.mem_zip_turned_iff`). A reported cycle
is closed by its first node already. So what follows its last node is that same node once more,
and the node that a cycle is written from comes out as a neighbour of itself
(`ModuleAtlas.Graph.adjacentIn_iff_of_closed`). All other neighbours are joined by an edge. A
cycle that lacks one of two nodes is passed over, which rules no neighbours out
(`ModuleAtlas.Graph.isCyclicEdge_eq_any`).
-/

namespace ModuleAtlas.Graph

section Adjacency

variable {first second : String} {cycle : List String}

private theorem pair_infix_cons_cons_iff {start next : String} {rest : List String} :
    [first, second] <:+: start :: next :: rest ↔
      (first = start ∧ second = next) ∨ [first, second] <:+: next :: rest := by
  rw [List.infix_cons_iff, List.cons_prefix_cons, List.cons_prefix_cons,
    and_iff_left List.nil_prefix]

/-- A node stands before what follows it in the list, and the last before what is put behind. -/
theorem mem_zip_turned_iff {start behind : String} {rest : List String} :
    (first, second) ∈ (start :: rest).zip (rest ++ [behind]) ↔
      [first, second] <:+: start :: rest ∨
        (start :: rest).getLast? = some first ∧ behind = second := by
  induction rest generalizing start with
  | nil =>
      have short : ¬ [first, second] <:+: [start] := fun step => absurd step.length_le (by simp)
      simp only [List.nil_append, List.zip_cons_cons, List.zip_nil_right, List.mem_singleton,
        Prod.mk.injEq, List.getLast?_singleton, Option.some.injEq, short, false_or]
      exact and_congr eq_comm eq_comm
  | cons next rest ih =>
      rw [List.cons_append, List.zip_cons_cons, List.mem_cons, ih, pair_infix_cons_cons_iff,
        List.getLast?_cons_cons, Prod.mk.injEq, or_assoc]

/-- In a list that ends where it begins, the turn from its last node to its first adds that node
as a neighbour of itself. -/
theorem adjacentIn_iff_of_closed (closed : cycle.head? = cycle.getLast?) :
    adjacentIn cycle first second = true ↔
      [first, second] <:+: cycle ∨ [second, first] <:+: cycle ∨
        first = second ∧ cycle.head? = some first := by
  cases cycle with
  | nil => simp [adjacentIn]
  | cons start rest =>
      have either : adjacentIn (start :: rest) first second = true ↔
          (first, second) ∈ (start :: rest).zip (rest ++ [start]) ∨
            (second, first) ∈ (start :: rest).zip (rest ++ [start]) := by
        simp only [adjacentIn, List.drop_succ_cons, List.drop_zero, List.take_succ_cons,
          List.take_zero, List.any_eq_true, Bool.or_eq_true, decide_eq_true_eq, and_or_left,
          exists_or, exists_eq_right]
      rw [either, mem_zip_turned_iff, mem_zip_turned_iff, ← closed, List.head?_cons]
      simp only [Option.some.injEq]
      constructor
      · rintro ((step | ⟨rfl, rfl⟩) | (step | ⟨rfl, rfl⟩))
        · exact Or.inl step
        · exact Or.inr (Or.inr ⟨rfl, rfl⟩)
        · exact Or.inr (Or.inl step)
        · exact Or.inr (Or.inr ⟨rfl, rfl⟩)
      · rintro (step | step | ⟨rfl, rfl⟩)
        · exact Or.inl (Or.inl step)
        · exact Or.inr (Or.inl step)
        · exact Or.inl (Or.inr ⟨rfl, rfl⟩)

/-- Neighbours in a cycle are nodes of it. -/
theorem mem_of_adjacentIn (adjacent : adjacentIn cycle first second = true) :
    first ∈ cycle ∧ second ∈ cycle := by
  have inside : ∀ {one other : String},
      (one, other) ∈ cycle.zip (cycle.drop 1 ++ cycle.take 1) → one ∈ cycle ∧ other ∈ cycle := by
    intro one other step
    obtain ⟨early, late⟩ := List.of_mem_zip step
    refine ⟨early, ?_⟩
    rcases List.mem_append.mp late with dropped | taken
    · exact List.mem_of_mem_drop dropped
    · exact List.mem_of_mem_take taken
  obtain ⟨step, member, same⟩ := List.any_eq_true.mp adjacent
  rcases Bool.or_eq_true_iff.mp same with forth | back
  · rw [of_decide_eq_true forth] at member
    exact inside member
  · rw [of_decide_eq_true back] at member
    exact (inside member).symm

/-- The look whether both nodes are in a cycle rules no neighbours out. -/
theorem isCyclicEdge_eq_any (cycles : List (List String)) (first second : String) :
    isCyclicEdge cycles first second = cycles.any fun cycle => adjacentIn cycle first second := by
  rw [isCyclicEdge]
  congr 1
  funext cycle
  cases adjacent : adjacentIn cycle first second with
  | false => rw [Bool.and_false]
  | true =>
      obtain ⟨one, other⟩ := mem_of_adjacentIn adjacent
      rw [decide_eq_true one, decide_eq_true other, Bool.and_true, Bool.and_true]

private theorem adjacentIn_comm (cycle : List String) (first second : String) :
    adjacentIn cycle first second = adjacentIn cycle second first := by
  unfold adjacentIn
  simp only [Bool.or_comm]

end Adjacency

/-- Two nodes follow one another in a reported cycle. -/
def HasReportedStep (graph : Graph) (source target : String) : Prop :=
  ∃ cycle ∈ graph.detectCycles, [source, target] <:+: cycle

/-- A reported cycle is written from a node that does not import itself. -/
def IsTurningPoint (graph : Graph) (node : String) : Prop :=
  (∃ cycle ∈ graph.detectCycles, cycle.head? = some node) ∧ ¬ graph.HasInternalEdge node node

section Reported

variable {graph : Graph} {first second node : String}

private theorem HasReportedStep.edge (step : graph.HasReportedStep first second) :
    graph.HasInternalEdge first second := by
  obtain ⟨cycle, reported, inside⟩ := step
  have linked := (graph.reports_detectCycles.cycle cycle reported).linked
  have step : [first, second].IsChain graph.HasInternalEdge := List.IsChain.infix linked inside
  exact List.isChain_pair.mp step

private theorem reached_of_head? {cycle : List String} (reported : cycle ∈ graph.detectCycles)
    (starts : cycle.head? = some node) : graph.Reached node := by
  obtain ⟨source, target, closes, -, -, -, reached⟩ :=
    graph.reports_detectCycles.closing cycle reported
  have ends : cycle.getLast? = some target := congrArg Prod.snd closes
  have closed := (graph.reports_detectCycles.cycle cycle reported).closed
  rw [starts, ends, Option.some.injEq] at closed
  exact closed ▸ reached

/-- The edge that closes a reported cycle is a step of it. -/
theorem Closes.hasReportedStep (closes : graph.Closes first second) :
    graph.HasReportedStep first second := by
  obtain ⟨cycle, reported, same⟩ := List.mem_map.mp closes
  obtain ⟨before, last⟩ := Prod.mk.inj same
  obtain ⟨opened, rfl⟩ := List.getLast?_eq_some_iff.mp last
  rw [List.dropLast_concat] at before
  obtain ⟨front, rfl⟩ := List.getLast?_eq_some_iff.mp before
  exact ⟨_, reported, front, [], by simp⟩

/-- A file that imports itself and is reached is reported as a cycle of its own. -/
theorem closes_self (reached : graph.Reached node) (loop : graph.HasInternalEdge node node) :
    graph.Closes node node := by
  obtain ⟨finished, order, done⟩ := graph.exists_finished
  by_contra unreported
  exact order.not_transGen (done node reached) (.single ⟨loop, unreported⟩)

/-- The neighbours in reported cycles are the ends of their steps, and the turning points. -/
theorem isCyclicEdge_iff :
    isCyclicEdge graph.detectCycles first second = true ↔
      (graph.HasReportedStep first second ∨ graph.HasReportedStep second first) ∨
        first = second ∧ graph.IsTurningPoint first := by
  have neighbours : ∀ cycle ∈ graph.detectCycles, adjacentIn cycle first second = true ↔
      [first, second] <:+: cycle ∨ [second, first] <:+: cycle ∨
        first = second ∧ cycle.head? = some first := by
    intro cycle reported
    exact adjacentIn_iff_of_closed (graph.reports_detectCycles.cycle cycle reported).closed
  rw [isCyclicEdge_eq_any, List.any_eq_true]
  constructor
  · rintro ⟨cycle, reported, adjacent⟩
    rcases (neighbours cycle reported).mp adjacent with step | step | ⟨rfl, starts⟩
    · exact Or.inl (Or.inl ⟨cycle, reported, step⟩)
    · exact Or.inl (Or.inr ⟨cycle, reported, step⟩)
    · by_cases loop : graph.HasInternalEdge first first
      · have closes := closes_self (reached_of_head? reported starts) loop
        exact Or.inl (Or.inl closes.hasReportedStep)
      · exact Or.inr ⟨rfl, ⟨cycle, reported, starts⟩, loop⟩
  · rintro ((⟨cycle, reported, step⟩ | ⟨cycle, reported, step⟩) |
      ⟨same, ⟨cycle, reported, starts⟩, -⟩)
    · exact ⟨cycle, reported, (neighbours cycle reported).mpr (Or.inl step)⟩
    · exact ⟨cycle, reported, (neighbours cycle reported).mpr (Or.inr (Or.inl step))⟩
    · exact ⟨cycle, reported, (neighbours cycle reported).mpr (Or.inr (Or.inr ⟨same, starts⟩))⟩

end Reported

/-- Two nodes are neighbours in the reported cycles exactly if one follows the other in one of
them, and then an internal edge joins them, unless they are one node and a turning point: such a
node is taken for its own neighbour though no edge leads from it to itself. The question does not
depend on the order of the two nodes. -/
theorem isCyclicEdge_iff_step_iff (graph : Graph) (first second : String) :
    ((isCyclicEdge graph.detectCycles first second = true ↔
        graph.HasReportedStep first second ∨ graph.HasReportedStep second first) ↔
      ¬ (first = second ∧ graph.IsTurningPoint first)) ∧
    ((isCyclicEdge graph.detectCycles first second = true →
        graph.HasInternalEdge first second ∨ graph.HasInternalEdge second first) ↔
      ¬ (first = second ∧ graph.IsTurningPoint first)) ∧
    (first = second ∧ graph.IsTurningPoint first →
      isCyclicEdge graph.detectCycles first second = true) ∧
    isCyclicEdge graph.detectCycles first second =
      isCyclicEdge graph.detectCycles second first := by
  have edges : graph.HasReportedStep first second ∨ graph.HasReportedStep second first →
      graph.HasInternalEdge first second ∨ graph.HasInternalEdge second first :=
    Or.imp HasReportedStep.edge HasReportedStep.edge
  have unjoined : first = second ∧ graph.IsTurningPoint first →
      ¬ (graph.HasInternalEdge first second ∨ graph.HasInternalEdge second first) := by
    rintro ⟨rfl, -, loopless⟩
    exact fun joined => loopless (joined.elim id id)
  refine ⟨?_, ?_, fun turns => isCyclicEdge_iff.mpr (Or.inr turns), ?_⟩
  · rw [isCyclicEdge_iff]
    exact ⟨fun same turns => unjoined turns (edges (same.mp (Or.inr turns))),
      fun straight => or_iff_left straight⟩
  · rw [isCyclicEdge_iff]
    exact ⟨fun joins turns => unjoined turns (joins (Or.inr turns)),
      fun straight neighbours => edges (neighbours.resolve_right straight)⟩
  · simp only [isCyclicEdge_eq_any, adjacentIn_comm _ first second]

/-- Two files import each other. The cycle is written from the first of them, which is taken for
its own neighbour, while the second is not. -/
theorem cycle_start_is_own_neighbour :
    let graph := Graph.empty.replay [.addFile "a.js", .addDependency "a.js" "b.js" false,
      .addFile "b.js", .addDependency "b.js" "a.js" false]
    graph.detectCycles = [["a.js", "b.js", "a.js"]] ∧
      isCyclicEdge graph.detectCycles "a.js" "a.js" = true ∧
      isCyclicEdge graph.detectCycles "b.js" "b.js" = false ∧
      ¬ graph.HasReportedStep "a.js" "a.js" ∧ ¬ graph.HasInternalEdge "a.js" "a.js" := by
  intro graph
  have listed : graph.nodes = ["a.js", "b.js"] ∧ graph.scanned = ["a.js", "b.js"] ∧
      graph.internalSuccessors "a.js" = ["b.js"] ∧ graph.internalSuccessors "b.js" = ["a.js"] := by
    decide +kernel
  have swept : graph.sweep ["b.js"] [⟨"a.js", ["b.js"]⟩] = ([], [["a.js", "b.js", "a.js"]]) := by
    rw [sweep_push (by decide), listed.2.2.2, sweep_back (by decide) (by decide), sweep_pop,
      sweep_pop, sweep_nil]
    rfl
  have cycles : graph.detectCycles = [["a.js", "b.js", "a.js"]] := by
    rw [detectCycles_eq_sweepRoots, listed.1, listed.2.1, sweepRoots, if_pos (by decide),
      listed.2.2.1]
    change (graph.sweep ["b.js"] [⟨"a.js", ["b.js"]⟩]).2 ++
      graph.sweepRoots (graph.sweep ["b.js"] [⟨"a.js", ["b.js"]⟩]).1 ["b.js"] = _
    rw [swept]
    rfl
  have loopless : ¬ graph.HasInternalEdge "a.js" "a.js" := by
    unfold HasInternalEdge
    decide +kernel
  refine ⟨cycles, ?_, ?_, fun step => loopless step.edge, loopless⟩
  · rw [cycles]
    decide +kernel
  · rw [cycles]
    decide +kernel

end ModuleAtlas.Graph
