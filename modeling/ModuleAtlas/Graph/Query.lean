import ModuleAtlas.Graph.Basic

/-! # Queries on dependency graphs

Everything that a file depends on, the chains that lead from one node to
another, and whether two files are neighbours in a cycle.
-/

namespace ModuleAtlas.Graph

/-- The members of a list that are not in another. -/
def without (all some : List String) : List String := all.filter (· ∉ some)

/-- What is left of a list are the members that are not in the other. -/
theorem mem_without_iff {all some : List String} {node : String} :
    node ∈ without all some ↔ node ∈ all ∧ node ∉ some := by
  simp only [without, List.mem_filter, decide_eq_true_eq]

private theorem length_without_append_lt {all some more : List String} {node : String}
    (inAll : node ∈ all) (outside : node ∉ some) (inMore : node ∈ more) :
    (without all (some ++ more)).length < (without all some).length := by
  have again : without all (some ++ more) = without (without all some) more := by
    simp only [without, List.filter_filter, List.mem_append, not_or, Bool.decide_and, Bool.and_comm]
  rw [again]
  have spared := mem_without_iff.mpr ⟨inAll, outside⟩
  refine List.length_filter_lt_length_iff_exists.mpr ⟨node, spared, ?_⟩
  simpa using inMore

/-- Lists the dependencies of the nodes on a stack, from its top. `listed` are the nodes listed
so far, in order, and `expanded` those that have had their turn. What a node brings is put on
top of the stack as soon as it is listed. -/
def expand (graph : Graph) (listed expanded : List String) : List String → List String
  | [] => listed
  | current :: stack =>
      if current ∈ expanded then graph.expand listed expanded stack
      else
        let children := without (graph.successors current) listed
        graph.expand (listed ++ children) (current :: expanded) (children ++ stack)
termination_by stack => ((without graph.nodes listed).length, stack.length)
decreasing_by
  · exact Prod.Lex.right _ (Nat.lt_succ_self _)
  · cases found : without (graph.successors current) listed with
    | nil =>
        rw [List.append_nil]
        exact Prod.Lex.right _ (Nat.lt_succ_self _)
    | cons child others =>
        have member : child ∈ without (graph.successors current) listed := by
          rw [found]
          exact List.mem_cons_self
        obtain ⟨successor, unlisted⟩ := mem_without_iff.mp member
        exact Prod.Lex.left _ _ (length_without_append_lt
          (graph.mem_nodes_of_mem_successors successor) unlisted List.mem_cons_self)

/-- Everything that a file depends on, directly or not: the direct dependencies
first, then what each of them brings in turn. -/
def transitive (graph : Graph) (file : String) : List String :=
  graph.expand (graph.successors file) [] (graph.successors file)

/-- The chains to a target that go on from `node`, which was reached along
`path`. A chain that meets a target goes on while another target is off the
chain and `limit` more steps are allowed. -/
def chainsFrom (graph : Graph) (targets : List String) (path : List String) (node : String) :
    Nat → List (List String)
  | 0 => if node ∈ targets then [path ++ [node]] else []
  | limit + 1 =>
      let here := path ++ [node]
      (if node ∈ targets then [here] else []) ++
        if targets.all (· ∈ here) then []
        else
          (graph.successors node).flatMap fun next =>
            if next ∈ here then [] else graph.chainsFrom targets here next limit

/-- The targets that an identifier stands for: itself if it is a node, and
otherwise each of its characters. -/
def targetsOf (graph : Graph) (id : String) : List String :=
  if graph.hasNode id then [id] else letters id

/-- The chains without repetition from one node to another, of at most
`maxLength` steps if that is given. -/
def findPaths (graph : Graph) (source target : String) (maxLength : Option Int) :
    List (List String) :=
  let limit := maxLength.getD ((graph.nodes.length : Int) - 1)
  let targets := graph.targetsOf target
  if !graph.hasNode source || limit < 0 || targets.isEmpty then []
  else graph.chainsFrom targets [] source limit.toNat

/-- Whether a cycle has one node directly before the other, its last element
being followed by its first. -/
def adjacentIn (cycle : List String) (first second : String) : Bool :=
  (cycle.zip (cycle.drop 1 ++ cycle.take 1)).any fun step =>
    step = (first, second) || step = (second, first)

/-- Whether two files are neighbours in one of the cycles. A cycle that lacks one of them is
not looked at any further. -/
def isCyclicEdge (cycles : List (List String)) (first second : String) : Bool :=
  cycles.any fun cycle => first ∈ cycle && second ∈ cycle && adjacentIn cycle first second

end ModuleAtlas.Graph
