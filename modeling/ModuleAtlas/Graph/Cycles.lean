import ModuleAtlas.Failure
import ModuleAtlas.Graph.Basic

/-! # Cycles of internal dependencies

`detectCycles` makes one depth-first pass from the scanned files and reports the
path suffix whenever an edge leads back to the path. `simpleCycles` lists every
cycle without repetition, each from its least node.
-/

namespace ModuleAtlas.Graph

/-- A node on the current path and those of its successors not looked at yet. -/
structure Branch where
  node : String
  pending : List String

/-- The path that a stack of branches describes, from its root. -/
def pathOf (branches : List Branch) : List String := (branches.map Branch.node).reverse

/-- The end of a path from a node on. -/
def suffixFrom (node : String) : List String → List String
  | [] => []
  | first :: rest => if first = node then first :: rest else suffixFrom node rest

/-- What a depth-first pass marks the nodes with that it has entered: a node on the current path
is gray, and one is black when all that it leads to has been looked at. -/
inductive Colour where
  | gray
  | black
  deriving DecidableEq

/-- How much is left to look at on a stack of branches. -/
def workLeft : List Branch → Nat
  | [] => 0
  | branch :: branches => branch.pending.length + 1 + workLeft branches

/-- What may still be given its first colour: the nodes, and what is pending without being one. -/
def uncoloured (graph : Graph) (colours : Table Colour) (branches : List Branch) : List String :=
  (graph.nodes ++ (branches.flatMap Branch.pending).filter (· ∉ graph.nodes)).filter
    (· ∉ colours.names)

private theorem uncoloured_set (graph : Graph) (colours : Table Colour) (branches : List Branch)
    (node : String) (colour : Colour) :
    graph.uncoloured (colours.set node colour) branches =
      (graph.uncoloured colours branches).filter (· ≠ node) := by
  simp only [uncoloured, Table.names_set, mem_insertName, not_or, List.filter_filter,
    Bool.decide_and, Bool.and_comm]

private theorem uncoloured_sublist {graph : Graph} (colours : Table Colour)
    {fewer more : List Branch} (sublist : (fewer.flatMap Branch.pending).Sublist
      (more.flatMap Branch.pending)) :
    (graph.uncoloured colours fewer).Sublist (graph.uncoloured colours more) :=
  ((sublist.filter _).append_left graph.nodes).filter _

/-- A child that is entered does not wait for its first colour any more, and what it brings are
nodes. -/
private theorem length_uncoloured_push {graph : Graph} {colours : Table Colour}
    {node child : String} {pending : List String} {branches : List Branch}
    (fresh : colours.lookup child = none) :
    (graph.uncoloured (colours.set child .gray)
        (⟨child, graph.internalSuccessors child⟩ :: ⟨node, pending⟩ :: branches)).length <
      (graph.uncoloured colours (⟨node, child :: pending⟩ :: branches)).length := by
  have absent : child ∉ colours.names := by
    rw [Table.mem_names_iff, fresh]
    exact Bool.false_ne_true
  have waits : child ∈ graph.uncoloured colours (⟨node, child :: pending⟩ :: branches) := by
    simp only [uncoloured, List.mem_filter, List.mem_append, List.flatMap_cons, List.mem_cons,
      true_or, decide_eq_true_eq, true_and, absent, not_false_eq_true, and_true]
    exact Decidable.em _
  have inside : (graph.internalSuccessors child).filter (· ∉ graph.nodes) = [] := by
    rw [List.filter_eq_nil_iff]
    intro next successor
    rw [decide_eq_true_eq]
    exact not_not_intro (graph.mem_nodes_of_mem_internalSuccessors successor)
  have fewer : (graph.uncoloured colours
      (⟨child, graph.internalSuccessors child⟩ :: ⟨node, pending⟩ :: branches)).Sublist
        (graph.uncoloured colours (⟨node, child :: pending⟩ :: branches)) := by
    have same : graph.uncoloured colours
        (⟨child, graph.internalSuccessors child⟩ :: ⟨node, pending⟩ :: branches) =
          graph.uncoloured colours (⟨node, pending⟩ :: branches) := by
      simp only [uncoloured, List.flatMap_cons, List.filter_append, inside, List.nil_append]
    rw [same]
    exact uncoloured_sublist colours (List.sublist_cons_self child _)
  rw [uncoloured_set]
  exact Nat.lt_of_le_of_lt (fewer.filter _).length_le
    (List.length_filter_lt_length_iff_exists.mpr ⟨child, waits, by simp⟩)

private theorem lex_of_le {first second less more : Nat} (weak : first ≤ second)
    (strict : less < more) : Prod.Lex (· < ·) (· < ·) (first, less) (second, more) := by
  rcases Nat.lt_or_eq_of_le weak with lower | same
  · exact Prod.Lex.left _ _ lower
  · exact same ▸ Prod.Lex.right _ strict

/-- Goes on with a stack of branches, innermost first. The result is the colours at the end and
the cycles met. -/
def explore (graph : Graph) (colours : Table Colour) :
    List Branch → Table Colour × List (List String)
  | [] => (colours, [])
  | ⟨node, []⟩ :: branches => graph.explore (colours.set node .black) branches
  | ⟨node, child :: pending⟩ :: branches =>
      if colours.lookup child = some .gray then
        let (final, cycles) := graph.explore colours (⟨node, pending⟩ :: branches)
        (final, (suffixFrom child (pathOf (⟨node, pending⟩ :: branches)) ++ [child]) :: cycles)
      else if colours.lookup child = none then
        graph.explore (colours.set child .gray)
          (⟨child, graph.internalSuccessors child⟩ :: ⟨node, pending⟩ :: branches)
      else graph.explore colours (⟨node, pending⟩ :: branches)
termination_by branches => ((graph.uncoloured colours branches).length, workLeft branches)
decreasing_by
  · apply lex_of_le
    · rw [uncoloured_set]
      exact List.length_filter_le _ _
    · exact Nat.lt_add_of_pos_left (Nat.succ_pos _)
  · exact lex_of_le (uncoloured_sublist colours (List.sublist_cons_self child _)).length_le
      (by simp [workLeft])
  · next fresh => exact Prod.Lex.left _ _ (length_uncoloured_push fresh)
  · exact lex_of_le (uncoloured_sublist colours (List.sublist_cons_self child _)).length_le
      (by simp [workLeft])

/-- The cycles met from roots that are tried in turn. -/
def exploreRoots (graph : Graph) (colours : Table Colour) : List String → List (List String)
  | [] => []
  | root :: roots =>
      if root ∈ colours.names then graph.exploreRoots colours roots
      else
        let (final, cycles) :=
          graph.explore (colours.set root .gray) [⟨root, graph.internalSuccessors root⟩]
        cycles ++ graph.exploreRoots final roots

/-- One cycle for every edge that leads back to the path of a depth-first pass
from the scanned files, each closed by repeating its first file. -/
def detectCycles (graph : Graph) : List (List String) :=
  graph.exploreRoots [] graph.scanned

/-- The cycles back to `start` that go on from `node`, which was reached along
`path`, through nodes greater than `start`. At most `limit` more nodes may be
on the cycle, `node` among them. -/
def cyclesFrom (graph : Graph) (start : String) (path : List String) (node : String) :
    Nat → List (List String)
  | 0 => []
  | limit + 1 =>
      let here := path ++ [node]
      (graph.internalSuccessors node).flatMap fun next =>
        if next = start then [here ++ [start]]
        else if start < next && next ∉ here then graph.cyclesFrom start here next limit
        else []

/-- Whether a path is equal to another or comes before it, compared node by
node. -/
def pathLE : List String → List String → Bool
  | [], _ => true
  | _ :: _, [] => false
  | node :: path, other :: others =>
      if node = other then pathLE path others else decide (node < other)

/-- All cycles of at most `limit` nodes, each written from its least node and
closed by repeating it, in the order of their nodes. -/
def cyclesWithin (graph : Graph) (limit : Nat) : List (List String) :=
  (graph.nodes.flatMap fun start => graph.cyclesFrom start [] start limit).mergeSort pathLE

/-- All cycles, of at most `bound` nodes if that is given. -/
def simpleCycles (graph : Graph) (bound : Option Int) : Except Failure (List (List String)) :=
  match bound with
  | none => .ok (graph.cyclesWithin graph.nodes.length)
  | some bound => if bound < 0 then .error .negativeBound else .ok (graph.cyclesWithin bound.toNat)

end ModuleAtlas.Graph
