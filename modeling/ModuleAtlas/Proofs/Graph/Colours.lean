import Mathlib.Data.List.Nodup
import ModuleAtlas.Graph.Cycles

/-! # The colours of a depth-first pass

A depth-first pass colours the nodes that it enters, and it decides by its colour what to do with
a child. At every moment the gray nodes are those of the path, and the nodes without a colour are
those not entered yet (`ModuleAtlas.Graph.Coloured`). So the pass does what one without colours
does, which looks for a child among the unseen nodes and on the path
(`ModuleAtlas.Graph.sweep`), and it meets the same cycles
(`ModuleAtlas.Graph.detectCycles_eq_sweepRoots`).
-/

namespace ModuleAtlas.Graph

/-- Goes on with a stack of branches, innermost first. `unseen` are the nodes
not entered so far; the result is those left at the end and the cycles met. -/
def sweep (graph : Graph) (unseen : List String) :
    List Branch → List String × List (List String)
  | [] => (unseen, [])
  | ⟨_, []⟩ :: branches => graph.sweep unseen branches
  | ⟨node, child :: pending⟩ :: branches =>
      let rest := ⟨node, pending⟩ :: branches
      if child ∈ unseen then
        graph.sweep (unseen.erase child) (⟨child, graph.internalSuccessors child⟩ :: rest)
      else
        let path := pathOf rest
        let (left, cycles) := graph.sweep unseen rest
        (left, if child ∈ path then (suffixFrom child path ++ [child]) :: cycles else cycles)
termination_by branches => (unseen.length, workLeft branches)
decreasing_by
  · exact Prod.Lex.right _ (by simp [workLeft])
  · next inside =>
      apply Prod.Lex.left
      rw [List.length_erase_of_mem inside]
      exact Nat.sub_lt (List.length_pos_of_mem inside) Nat.one_pos
  · exact Prod.Lex.right _ (by simp [workLeft])

/-- The cycles met from roots that are tried in turn. -/
def sweepRoots (graph : Graph) (unseen : List String) : List String → List (List String)
  | [] => []
  | root :: roots =>
      if root ∈ unseen then
        let (left, cycles) :=
          graph.sweep (unseen.erase root) [⟨root, graph.internalSuccessors root⟩]
        cycles ++ graph.sweepRoots left roots
      else graph.sweepRoots unseen roots

section Sweep

variable {graph : Graph} {unseen pending : List String} {branches : List Branch}
  {node child : String}

/-- A pass ends with its stack. -/
theorem sweep_nil (graph : Graph) (unseen : List String) :
    graph.sweep unseen [] = (unseen, []) := by
  rw [sweep.eq_def]

/-- A branch without pending successors is left. -/
theorem sweep_pop (graph : Graph) (unseen : List String) (node : String)
    (branches : List Branch) :
    graph.sweep unseen (⟨node, []⟩ :: branches) = graph.sweep unseen branches := by
  rw [sweep.eq_def]

/-- An unseen child is entered. -/
theorem sweep_push (inside : child ∈ unseen) :
    graph.sweep unseen (⟨node, child :: pending⟩ :: branches) =
      graph.sweep (unseen.erase child)
        (⟨child, graph.internalSuccessors child⟩ :: ⟨node, pending⟩ :: branches) := by
  rw [sweep.eq_def]
  exact if_pos inside

/-- A child on the path closes a cycle. -/
theorem sweep_back (outside : child ∉ unseen)
    (onPath : child ∈ pathOf (⟨node, pending⟩ :: branches)) :
    graph.sweep unseen (⟨node, child :: pending⟩ :: branches) =
      ((graph.sweep unseen (⟨node, pending⟩ :: branches)).1,
        (suffixFrom child (pathOf (⟨node, pending⟩ :: branches)) ++ [child]) ::
          (graph.sweep unseen (⟨node, pending⟩ :: branches)).2) := by
  rw [sweep.eq_def]
  dsimp only
  rw [if_neg outside, if_pos onPath]

/-- A child that was left before is passed over. -/
theorem sweep_skip (outside : child ∉ unseen)
    (offPath : child ∉ pathOf (⟨node, pending⟩ :: branches)) :
    graph.sweep unseen (⟨node, child :: pending⟩ :: branches) =
      graph.sweep unseen (⟨node, pending⟩ :: branches) := by
  rw [sweep.eq_def]
  dsimp only
  rw [if_neg outside, if_neg offPath]

end Sweep

/-- The gray nodes are those of the path, and the nodes without a colour are the unseen ones. -/
structure Coloured (graph : Graph) (colours : Table Colour) (unseen : List String)
    (branches : List Branch) : Prop where
  gray : ∀ node, colours.lookup node = some .gray ↔ node ∈ branches.map Branch.node
  plain : ∀ node ∈ graph.nodes, colours.lookup node = none ↔ node ∈ unseen
  /-- No node is unseen twice, or twice on the path. -/
  fresh : unseen.Nodup
  distinct : (branches.map Branch.node).Nodup
  /-- What is pending are nodes. -/
  pending : ∀ branch ∈ branches, ∀ child ∈ branch.pending, child ∈ graph.nodes

section Colours

variable {graph : Graph} {colours : Table Colour} {unseen pending : List String}
  {branches : List Branch} {node child : String}

private theorem mem_pathOf_iff : node ∈ pathOf branches ↔ node ∈ branches.map Branch.node :=
  List.mem_reverse

/-- A node that is left turns black, and it is not on the path any more. -/
theorem Coloured.pop {rest : List String}
    (coloured : graph.Coloured colours unseen (⟨node, rest⟩ :: branches)) :
    graph.Coloured (colours.set node .black) unseen branches := by
  obtain ⟨absent, distinct⟩ := List.nodup_cons.mp coloured.distinct
  have onPath : colours.lookup node = some .gray := (coloured.gray node).mpr List.mem_cons_self
  constructor
  case gray =>
    intro other
    rw [Table.lookup_set]
    by_cases same : other = node
    · rw [if_pos same, same]
      exact iff_of_false (fun black => nomatch black) absent
    · rw [if_neg same, coloured.gray, List.map_cons, List.mem_cons]
      exact or_iff_right same
  case plain =>
    intro other isNode
    rw [Table.lookup_set, ← coloured.plain other isNode]
    by_cases same : other = node
    · rw [if_pos same, same, onPath]
      exact iff_of_false (fun black => nomatch black) fun gray => nomatch gray
    · rw [if_neg same]
  case fresh => exact coloured.fresh
  case distinct => exact distinct
  case pending =>
    exact fun branch member => coloured.pending branch (List.mem_cons_of_mem _ member)

/-- A node that is looked at again changes no colour. -/
theorem Coloured.advance
    (coloured : graph.Coloured colours unseen (⟨node, child :: pending⟩ :: branches)) :
    graph.Coloured colours unseen (⟨node, pending⟩ :: branches) := by
  obtain ⟨inner, outer⟩ := List.forall_mem_cons.mp coloured.pending
  refine ⟨coloured.gray, coloured.plain, coloured.fresh, coloured.distinct, ?_⟩
  exact List.forall_mem_cons.mpr ⟨(List.forall_mem_cons.mp inner).2, outer⟩

/-- A node that is entered turns gray, and it is unseen no longer. -/
theorem Coloured.enter (coloured : graph.Coloured colours unseen branches)
    (plain : colours.lookup child = none) :
    graph.Coloured (colours.set child .gray) (unseen.erase child)
      (⟨child, graph.internalSuccessors child⟩ :: branches) := by
  constructor
  case gray =>
    intro other
    rw [Table.lookup_set, List.map_cons, List.mem_cons]
    by_cases same : other = child
    · rw [if_pos same]
      exact iff_of_true rfl (Or.inl same)
    · rw [if_neg same, coloured.gray, or_iff_right same]
  case plain =>
    intro other otherNode
    rw [Table.lookup_set, coloured.fresh.mem_erase_iff, ← coloured.plain other otherNode]
    by_cases same : other = child
    · rw [if_pos same]
      exact iff_of_false (fun gray => nomatch gray) fun unequal => unequal.1 same
    · rw [if_neg same, and_iff_right same]
  case fresh => exact coloured.fresh.erase child
  case distinct =>
    refine List.nodup_cons.mpr ⟨fun onPath => ?_, coloured.distinct⟩
    rw [← coloured.gray, plain] at onPath
    cases onPath
  case pending =>
    exact List.forall_mem_cons.mpr ⟨fun next successor =>
      graph.mem_nodes_of_mem_internalSuccessors successor, coloured.pending⟩

/-- With colours a pass meets the cycles that it meets without, and it leaves the same nodes
unseen. -/
theorem Coloured.explore (coloured : graph.Coloured colours unseen branches) :
    (graph.explore colours branches).2 = (graph.sweep unseen branches).2 ∧
      graph.Coloured (graph.explore colours branches).1 (graph.sweep unseen branches).1 [] := by
  induction colours, branches using explore.induct graph generalizing unseen with
  | case1 colours =>
      rw [explore.eq_def, sweep_nil]
      exact ⟨rfl, coloured⟩
  | case2 colours node branches ih =>
      rw [explore.eq_def, sweep_pop]
      exact ih coloured.pop
  | case3 colours node child pending branches gray final cycles _ ih =>
      have onPath := (coloured.advance.gray child).mp gray
      have isNode : child ∈ graph.nodes :=
        coloured.pending _ List.mem_cons_self child List.mem_cons_self
      have outside : child ∉ unseen := by
        rw [← coloured.plain child isNode, gray]
        exact Option.some_ne_none _
      obtain ⟨same, ends⟩ := ih coloured.advance
      rw [explore.eq_def, sweep_back outside (mem_pathOf_iff.mpr onPath)]
      dsimp only
      rw [if_pos gray]
      exact ⟨congrArg _ same, ends⟩
  | case4 colours node child pending branches notGray plain ih =>
      have isNode : child ∈ graph.nodes :=
        coloured.pending _ List.mem_cons_self child List.mem_cons_self
      rw [explore.eq_def, sweep_push ((coloured.plain child isNode).mp plain)]
      dsimp only
      rw [if_neg notGray, if_pos plain]
      exact ih (coloured.advance.enter plain)
  | case5 colours node child pending branches notGray notPlain ih =>
      have isNode : child ∈ graph.nodes :=
        coloured.pending _ List.mem_cons_self child List.mem_cons_self
      have outside : child ∉ unseen := fun inside =>
        notPlain ((coloured.plain child isNode).mpr inside)
      have offPath : child ∉ pathOf (⟨node, pending⟩ :: branches) := fun onPath =>
        notGray ((coloured.gray child).mpr (mem_pathOf_iff.mp onPath))
      rw [explore.eq_def, sweep_skip outside offPath]
      dsimp only
      rw [if_neg notGray, if_neg notPlain]
      exact ih coloured.advance

private theorem exploreRoots_eq {roots : List String} (coloured : graph.Coloured colours unseen [])
    (inside : ∀ root ∈ roots, root ∈ graph.nodes) :
    graph.exploreRoots colours roots = graph.sweepRoots unseen roots := by
  induction roots generalizing colours unseen with
  | nil => rfl
  | cons root roots ih =>
      obtain ⟨isNode, others⟩ := List.forall_mem_cons.mp inside
      rw [exploreRoots, sweepRoots]
      by_cases waits : root ∈ unseen
      · have plain : colours.lookup root = none := (coloured.plain root isNode).mpr waits
        have uncoloured : root ∉ colours.names := by
          rw [Table.mem_names_iff, plain]
          exact Bool.false_ne_true
        obtain ⟨same, ends⟩ := (coloured.enter plain).explore
        rw [if_neg uncoloured, if_pos waits]
        dsimp only
        rw [same, ih ends others]
      · have tried : root ∈ colours.names := by
          rw [Table.mem_names_iff, Option.isSome_iff_ne_none]
          exact fun plain => waits ((coloured.plain root isNode).mp plain)
        rw [if_pos tried, if_neg waits]
        exact ih coloured others

/-- The cycles are those that a pass without colours meets. -/
theorem detectCycles_eq_sweepRoots (graph : Graph) :
    graph.detectCycles = graph.sweepRoots graph.nodes graph.scanned := by
  have start : graph.Coloured [] graph.nodes [] := by
    refine ⟨fun node => ?_, fun node isNode => ?_, graph.nodes_nodup, List.nodup_nil, ?_⟩
    · exact iff_of_false (fun gray => nomatch gray) List.not_mem_nil
    · exact iff_of_true rfl isNode
    · exact List.forall_mem_nil _
  exact exploreRoots_eq start graph.scanned_nodes

end Colours

end ModuleAtlas.Graph
