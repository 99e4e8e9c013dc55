import Mathlib.Data.List.Chain
import ModuleAtlas.Proofs.Graph.Trail
import ModuleAtlas.Proofs.Graph.Transitive

/-! # Routes from one node to another

A route is a chain of edges that meets no node twice. The search for chains goes on from a
path and gives up where all targets are on the path already; no route is lost there, since a
route that went on would end at a target that it has met before. So the search lists exactly
the routes to its targets (`ModuleAtlas.Graph.mem_chainsFrom_iff`), each once
(`ModuleAtlas.Graph.nodup_chainsFrom`). Wherever edges lead, a route leads, and it is no longer
than the graph has nodes (`ModuleAtlas.Graph.exists_isRoute_iff`).

The target of a search is a node, or else it stands for the characters of its text. A search
for what is not in the graph therefore lists the routes to nodes with names of one character
(`ModuleAtlas.Graph.Strays`).
-/

namespace ModuleAtlas.Graph

/-- A chain of edges leads from one node to another and meets no node twice. -/
structure IsRoute (graph : Graph) (source target : String) (route : List String) : Prop where
  head : route.head? = some source
  last : route.getLast? = some target
  linked : route.IsChain graph.DependsOn
  simple : route.Nodup

section Route

variable {graph : Graph} {source middle target : String} {route : List String}

private theorem isRoute_singleton (graph : Graph) (node : String) :
    graph.IsRoute node node [node] :=
  ⟨rfl, rfl, List.isChain_singleton node, List.nodup_singleton node⟩

private theorem IsRoute.cons (onward : graph.IsRoute middle target route)
    (depends : graph.DependsOn source middle) (unmet : source ∉ route) :
    graph.IsRoute source target (source :: route) := by
  obtain ⟨head, last, linked, simple⟩ := onward
  cases route with
  | nil => cases head
  | cons first rest =>
      cases head
      exact ⟨rfl, last, linked.cons_cons depends, List.nodup_cons.mpr ⟨unmet, simple⟩⟩

private theorem IsRoute.tail (whole : graph.IsRoute source target (source :: middle :: route)) :
    graph.DependsOn source middle ∧ source ∉ middle :: route ∧
      graph.IsRoute middle target (middle :: route) := by
  obtain ⟨depends, linked⟩ := List.isChain_cons_cons.mp whole.linked
  obtain ⟨unmet, simple⟩ := List.nodup_cons.mp whole.simple
  exact ⟨depends, unmet, rfl, whole.last, linked, simple⟩

private theorem IsRoute.exists_eq_cons (whole : graph.IsRoute source target route) :
    ∃ rest, route = source :: rest :=
  List.head?_eq_some_iff.mp whole.head

/-- A route goes on from every node that it meets. -/
theorem IsRoute.suffixFrom (whole : graph.IsRoute source target route) (met : middle ∈ route) :
    graph.IsRoute middle target (suffixFrom middle route) := by
  have suffix := suffixFrom_suffix middle route
  constructor
  case head => exact head?_suffixFrom met
  case last => exact (getLast?_suffixFrom met).trans whole.last
  case linked => exact whole.linked.suffix suffix
  case simple => exact suffix.sublist.nodup whole.simple

private theorem IsRoute.path (whole : graph.IsRoute source target route) :
    Relation.ReflTransGen graph.DependsOn source target := by
  obtain ⟨rest, rfl⟩ := whole.exists_eq_cons
  have ends := whole.last
  rw [List.getLast?_eq_some_getLast (List.cons_ne_nil source rest)] at ends
  exact List.relationReflTransGen_of_exists_isChain_cons rest whole.linked (Option.some.inj ends)

/-- Wherever edges lead, a route leads. -/
theorem exists_isRoute_of_path (path : Relation.ReflTransGen graph.DependsOn source target) :
    ∃ route, graph.IsRoute source target route := by
  induction path using Relation.ReflTransGen.head_induction_on with
  | refl => exact ⟨[target], graph.isRoute_singleton target⟩
  | @head first second depends _ onward =>
      obtain ⟨route, whole⟩ := onward
      -- A route that comes back to the first node is cut there.
      by_cases met : first ∈ route
      · exact ⟨_, whole.suffixFrom met⟩
      · exact ⟨_, whole.cons depends met⟩

private theorem IsRoute.subset_nodes (whole : graph.IsRoute source target route)
    (start : source ∈ graph.nodes) : route ⊆ graph.nodes := by
  induction route generalizing source with
  | nil => exact List.nil_subset _
  | cons first rest ih =>
      cases whole.head
      refine List.cons_subset.mpr ⟨start, ?_⟩
      cases rest with
      | nil => exact List.nil_subset _
      | cons second rest =>
          obtain ⟨depends, -, onward⟩ := whole.tail
          exact ih onward (mem_nodes_of_dependsOn depends).2

private theorem IsRoute.target_mem_nodes (whole : graph.IsRoute source target route)
    (start : source ∈ graph.nodes) : target ∈ graph.nodes :=
  whole.subset_nodes start (List.mem_of_getLast? whole.last)

/-- A route has no more nodes than its graph. -/
theorem IsRoute.length_le (whole : graph.IsRoute source target route)
    (start : source ∈ graph.nodes) : route.length ≤ graph.nodes.length :=
  whole.simple.length_le_of_subset (whole.subset_nodes start)

/-- A route of at most as many nodes as the graph has leads to a node and to whatever the node
depends on, directly or not. -/
theorem exists_isRoute_iff {count : Nat} (start : source ∈ graph.nodes)
    (enough : graph.nodes.length ≤ count) :
    (∃ route, graph.IsRoute source target route ∧ route.length ≤ count) ↔
      target = source ∨ target ∈ graph.transitive source := by
  rw [mem_transitive_iff, ← Relation.reflTransGen_iff_eq_or_transGen]
  constructor
  · rintro ⟨route, whole, -⟩
    exact whole.path
  · intro path
    obtain ⟨route, whole⟩ := exists_isRoute_of_path path
    exact ⟨route, whole, (whole.length_le start).trans enough⟩

end Route

section Search

variable {graph : Graph} {targets path chain : List String} {node : String} {limit : Nat}

/-- A route keeps off a path and its next node. -/
theorem apart_concat_iff {route : List String} :
    (∀ met ∈ route, met ∉ path ++ [node]) ↔ node ∉ route ∧ ∀ met ∈ route, met ∉ path := by
  simp only [← List.disjoint_left, List.disjoint_append_right, List.disjoint_singleton, and_comm]

private theorem mem_chainsFrom_zero :
    chain ∈ graph.chainsFrom targets path node 0 ↔ node ∈ targets ∧ chain = path ++ [node] := by
  rw [chainsFrom, List.mem_ite_nil_right, List.mem_singleton]

/-- One step of the search: the chain ends here, or it goes on with a successor that it has not
met, if a target is left. -/
theorem mem_chainsFrom_succ :
    chain ∈ graph.chainsFrom targets path node (limit + 1) ↔
      (node ∈ targets ∧ chain = path ++ [node]) ∨
        (∃ target ∈ targets, target ∉ path ++ [node]) ∧ ∃ next, graph.DependsOn node next ∧
          next ∉ path ++ [node] ∧ chain ∈ graph.chainsFrom targets (path ++ [node]) next limit := by
  have left : ¬ targets.all (· ∈ path ++ [node]) = true ↔
      ∃ target ∈ targets, target ∉ path ++ [node] := by
    simp only [List.all_eq_true, decide_eq_true_eq, not_forall, exists_prop]
  rw [chainsFrom, List.mem_append, List.mem_ite_nil_right, List.mem_singleton,
    List.mem_ite_nil_left, left, List.mem_flatMap]
  simp only [List.mem_ite_nil_left, mem_successors_iff]

/-- The search lists the routes on from a node to a target that keep off the path to the node,
each behind that path. -/
theorem mem_chainsFrom_iff (fresh : node ∉ path) :
    chain ∈ graph.chainsFrom targets path node limit ↔
      ∃ route, chain = path ++ route ∧ route.length ≤ limit + 1 ∧ (∀ met ∈ route, met ∉ path) ∧
        ∃ target ∈ targets, graph.IsRoute node target route := by
  induction limit generalizing path node with
  | zero =>
      rw [mem_chainsFrom_zero]
      constructor
      · rintro ⟨isTarget, rfl⟩
        exact ⟨[node], rfl, le_rfl, List.forall_mem_singleton.mpr fresh, node, isTarget,
          graph.isRoute_singleton node⟩
      · rintro ⟨route, rfl, short, -, target, isTarget, whole⟩
        obtain ⟨rest, rfl⟩ := whole.exists_eq_cons
        cases List.length_eq_zero_iff.mp (Nat.le_zero.mp (Nat.le_of_succ_le_succ short))
        cases whole.last
        exact ⟨isTarget, rfl⟩
  | succ limit ih =>
      rw [mem_chainsFrom_succ]
      constructor
      · rintro (⟨isTarget, rfl⟩ | ⟨-, next, depends, unmet, listed⟩)
        · exact ⟨[node], rfl, Nat.le_add_left 1 _, List.forall_mem_singleton.mpr fresh, node,
            isTarget, graph.isRoute_singleton node⟩
        · obtain ⟨route, rfl, short, later, target, isTarget, onward⟩ := (ih unmet).mp listed
          obtain ⟨unmet, apart⟩ := apart_concat_iff.mp later
          exact ⟨node :: route, by simp, Nat.succ_le_succ short,
            List.forall_mem_cons.mpr ⟨fresh, apart⟩, target, isTarget, onward.cons depends unmet⟩
      · rintro ⟨route, rfl, short, apart, target, isTarget, whole⟩
        obtain ⟨rest, rfl⟩ := whole.exists_eq_cons
        cases rest with
        | nil =>
            cases whole.last
            exact Or.inl ⟨isTarget, rfl⟩
        | cons next rest =>
            obtain ⟨depends, unmet, onward⟩ := whole.tail
            have later : ∀ met ∈ next :: rest, met ∉ path ++ [node] :=
              apart_concat_iff.mpr ⟨unmet, (List.forall_mem_cons.mp apart).2⟩
            -- The route ends at a target that the path has not met, so the search goes on here.
            have ends : target ∈ next :: rest := List.mem_of_getLast? onward.last
            refine Or.inr ⟨⟨target, isTarget, later target ends⟩, next, depends,
              later next List.mem_cons_self, ?_⟩
            rw [ih (later next List.mem_cons_self)]
            exact ⟨next :: rest, by simp, Nat.le_of_succ_le_succ short, later, target, isTarget,
              onward⟩

/-- What is listed goes on with the node where the search stands. -/
theorem exists_eq_of_mem_chainsFrom (fresh : node ∉ path)
    (listed : chain ∈ graph.chainsFrom targets path node limit) :
    ∃ rest, chain = path ++ node :: rest := by
  obtain ⟨route, rfl, -, -, target, -, whole⟩ := (mem_chainsFrom_iff fresh).mp listed
  obtain ⟨rest, rfl⟩ := whole.exists_eq_cons
  exact ⟨rest, rfl⟩

/-- No chain is listed twice. -/
theorem nodup_chainsFrom (fresh : node ∉ path) :
    (graph.chainsFrom targets path node limit).Nodup := by
  induction limit generalizing path node with
  | zero =>
      rw [chainsFrom]
      split
      · exact List.nodup_singleton _
      · exact List.nodup_nil
  | succ limit ih =>
      rw [chainsFrom]
      apply List.Nodup.append
      · split
        · exact List.nodup_singleton _
        · exact List.nodup_nil
      · split
        · exact List.nodup_nil
        · rw [List.nodup_flatMap]
          constructor
          · intro next _
            split
            · exact List.nodup_nil
            · next unmet => exact ih unmet
          · -- What is listed for two successors differs behind the path.
            apply (graph.nodup_successors node).imp
            intro first second different chain one other
            obtain ⟨early, one⟩ := List.mem_ite_nil_left.mp one
            obtain ⟨late, other⟩ := List.mem_ite_nil_left.mp other
            obtain ⟨rest, rfl⟩ := exists_eq_of_mem_chainsFrom early one
            obtain ⟨others, same⟩ := exists_eq_of_mem_chainsFrom late other
            exact different (List.cons.inj (List.append_cancel_left same)).1
      · intro chain ended later
        obtain ⟨-, ended⟩ := List.mem_ite_nil_right.mp ended
        obtain ⟨-, later⟩ := List.mem_ite_nil_left.mp later
        obtain ⟨next, -, later⟩ := List.mem_flatMap.mp later
        obtain ⟨unmet, later⟩ := List.mem_ite_nil_left.mp later
        obtain ⟨rest, same⟩ := exists_eq_of_mem_chainsFrom unmet later
        rw [List.mem_singleton.mp ended] at same
        exact absurd (congrArg List.length same) (by simp)

end Search

section Target

variable {graph : Graph} {source target : String} {maxLength : Option Int} {path : List String}

/-- The number of steps that a search may take. Without a limit it may take as many as a route
can have. -/
def stepsAllowed (graph : Graph) (maxLength : Option Int) : Int :=
  maxLength.getD ((graph.nodes.length : Int) - 1)

private theorem targetsOf_of_mem (isNode : target ∈ graph.nodes) :
    graph.targetsOf target = [target] :=
  if_pos (decide_eq_true isNode)

/-- What is not in the graph stands for the characters of its text. -/
theorem mem_targetsOf_iff_of_notMem {goal : String} (unknown : target ∉ graph.nodes) :
    goal ∈ graph.targetsOf target ↔ ∃ c ∈ target.toList, String.ofList [c] = goal := by
  have spelled : graph.targetsOf target = letters target := by
    rw [targetsOf, Inventory.hasNode, decide_eq_false unknown]
    rfl
  rw [spelled, letters, List.mem_eraseDups, List.mem_map]

/-- A search is refused, or it goes on from its source. -/
theorem findPaths_cases (graph : Graph) (source target : String) (maxLength : Option Int) :
    ((source ∉ graph.nodes ∨ graph.stepsAllowed maxLength < 0 ∨ graph.targetsOf target = []) ∧
      graph.findPaths source target maxLength = []) ∨
    (source ∈ graph.nodes ∧ 0 ≤ graph.stepsAllowed maxLength ∧
      graph.findPaths source target maxLength =
        graph.chainsFrom (graph.targetsOf target) [] source
          (graph.stepsAllowed maxLength).toNat) := by
  have refused : (!graph.hasNode source || decide (graph.stepsAllowed maxLength < 0) ||
      (graph.targetsOf target).isEmpty) = true ↔
      source ∉ graph.nodes ∨ graph.stepsAllowed maxLength < 0 ∨ graph.targetsOf target = [] := by
    simp only [Inventory.hasNode, Bool.or_eq_true, Bool.not_eq_true', decide_eq_false_iff_not,
      decide_eq_true_eq, List.isEmpty_iff, or_assoc]
  by_cases closed : source ∉ graph.nodes ∨ graph.stepsAllowed maxLength < 0 ∨
      graph.targetsOf target = []
  · exact Or.inl ⟨closed, if_pos (refused.mpr closed)⟩
  · have found : graph.findPaths source target maxLength =
        graph.chainsFrom (graph.targetsOf target) [] source
          (graph.stepsAllowed maxLength).toNat := if_neg (mt refused.mp closed)
    rw [not_or, not_or, not_not, not_lt] at closed
    exact Or.inr ⟨closed.1, closed.2.1, found⟩

/-- A search lists the routes from its source to its targets that are short enough. -/
theorem mem_findPaths_iff :
    path ∈ graph.findPaths source target maxLength ↔
      source ∈ graph.nodes ∧ (path.length : Int) ≤ graph.stepsAllowed maxLength + 1 ∧
        ∃ goal ∈ graph.targetsOf target, graph.IsRoute source goal path := by
  rcases graph.findPaths_cases source target maxLength with ⟨refused, none⟩ |
    ⟨start, allowed, found⟩
  · rw [none]
    refine iff_of_false List.not_mem_nil ?_
    rintro ⟨start, short, goal, isTarget, route⟩
    obtain ⟨rest, rfl⟩ := route.exists_eq_cons
    rw [List.length_cons] at short
    rcases refused with unknown | negative | empty
    · exact absurd start unknown
    · omega
    · rw [empty] at isTarget
      cases isTarget
  · have bound : path.length ≤ (graph.stepsAllowed maxLength).toNat + 1 ↔
        (path.length : Int) ≤ graph.stepsAllowed maxLength + 1 := by omega
    rw [found, mem_chainsFrom_iff List.not_mem_nil, and_iff_right start, ← bound]
    constructor
    · rintro ⟨route, rfl, short, -, reached⟩
      exact ⟨short, reached⟩
    · rintro ⟨short, reached⟩
      exact ⟨path, rfl, short, fun _ _ => List.not_mem_nil, reached⟩

private theorem nodup_findPaths (graph : Graph) (source target : String) (maxLength : Option Int) :
    (graph.findPaths source target maxLength).Nodup := by
  rcases graph.findPaths_cases source target maxLength with ⟨-, none⟩ | ⟨-, -, found⟩
  · rw [none]
    exact List.nodup_nil
  · rw [found]
    exact nodup_chainsFrom List.not_mem_nil

/-- Some character of a text is the name of a node, and a short enough route leads there. -/
def Strays (graph : Graph) (source target : String) (maxLength : Option Int) : Prop :=
  source ∈ graph.nodes ∧ ∃ c ∈ target.toList, ∃ route,
    graph.IsRoute source (String.ofList [c]) route ∧
      (route.length : Int) ≤ graph.stepsAllowed maxLength + 1

private theorem findPaths_eq_nil_iff_of_notMem (unknown : target ∉ graph.nodes) :
    graph.findPaths source target maxLength = [] ↔ ¬ graph.Strays source target maxLength := by
  rw [List.eq_nil_iff_forall_not_mem, ← not_exists, not_iff_not]
  simp only [mem_findPaths_iff, mem_targetsOf_iff_of_notMem unknown]
  constructor
  · rintro ⟨path, start, short, goal, ⟨c, inside, rfl⟩, route⟩
    exact ⟨start, c, inside, path, route, short⟩
  · rintro ⟨start, c, inside, path, route, short⟩
    exact ⟨path, start, short, _, ⟨c, inside, rfl⟩, route⟩

end Target

/-- Between two nodes, a search with a limit lists the routes of at most so many steps, each
once. With a limit that no route exceeds, it lists any exactly if the target is the source or
something that the source depends on, directly or not. -/
theorem findPaths_lists_routes (graph : Graph) (source target : String) (limit : Nat)
    (start : source ∈ graph.nodes) (goal : target ∈ graph.nodes) :
    (graph.findPaths source target (some limit)).Nodup ∧
    (∀ path, path ∈ graph.findPaths source target (some limit) ↔
      graph.IsRoute source target path ∧ path.length ≤ limit + 1) ∧
    (graph.nodes.length - 1 ≤ limit →
      (graph.findPaths source target (some limit) ≠ [] ↔
        target = source ∨ target ∈ graph.transitive source)) := by
  have listed : ∀ path, path ∈ graph.findPaths source target (some limit) ↔
      graph.IsRoute source target path ∧ path.length ≤ limit + 1 := by
    intro path
    have bound : (path.length : Int) ≤ graph.stepsAllowed (some limit) + 1 ↔
        path.length ≤ limit + 1 := by
      rw [stepsAllowed, Option.getD_some]
      omega
    rw [mem_findPaths_iff, targetsOf_of_mem goal, and_iff_right start, bound, and_comm]
    simp only [List.mem_singleton, exists_eq_left]
  refine ⟨graph.nodup_findPaths source target _, listed, fun enough => ?_⟩
  have covers : graph.nodes.length ≤ limit + 1 := by omega
  rw [← exists_isRoute_iff start covers, ne_eq, List.eq_nil_iff_forall_not_mem]
  simp only [listed, not_forall, not_not]

/-- The imports of four files, two of which lie between the first and the last. -/
def diamondOperations : List Operation :=
  [.addDependency "A" "B" false, .addDependency "A" "C" false, .addDependency "B" "D" false,
    .addDependency "C" "D" false]

/-- Two routes lead from one end of the diamond to the other, and the last file is among the
dependencies of the first. -/
theorem findPaths_lists_routes_of_diamond :
    let graph := Graph.empty.replay diamondOperations
    "A" ∈ graph.nodes ∧ "D" ∈ graph.nodes ∧ graph.nodes.length - 1 ≤ 3 ∧
      graph.IsRoute "A" "D" ["A", "B", "D"] ∧ graph.IsRoute "A" "D" ["A", "C", "D"] ∧
      "D" ∈ graph.transitive "A" := by
  intro graph
  have start : "A" ∈ graph.nodes := by decide +kernel
  have goal : "D" ∈ graph.nodes := by decide +kernel
  have enough : graph.nodes.length - 1 ≤ 3 := by decide +kernel
  have found : graph.findPaths "A" "D" (some (3 : Nat)) = [["A", "B", "D"], ["A", "C", "D"]] := by
    decide +kernel
  obtain ⟨-, listed, reaches⟩ := findPaths_lists_routes graph "A" "D" 3 start goal
  have first := (listed ["A", "B", "D"]).mp (found ▸ by simp)
  have second := (listed ["A", "C", "D"]).mp (found ▸ by simp)
  have reached := (reaches enough).mp (found ▸ List.cons_ne_nil _ _)
  exact ⟨start, goal, enough, first.1, second.1, reached.resolve_left (by decide)⟩

/-- Every chain that a search lists starts at its source. All of them end at its target exactly
if the target is a node, or no route leads to a node that is named by a character of the target.
A search for what is not in the graph finds nothing exactly if no such route does. -/
theorem findPaths_end_at_target_iff (graph : Graph) (source target : String)
    (maxLength : Option Int) :
    (∀ path ∈ graph.findPaths source target maxLength, path.head? = some source) ∧
    ((∀ path ∈ graph.findPaths source target maxLength, path.getLast? = some target) ↔
      target ∈ graph.nodes ∨ ¬ graph.Strays source target maxLength) ∧
    (target ∉ graph.nodes →
      (graph.findPaths source target maxLength = [] ↔
        ¬ graph.Strays source target maxLength)) := by
  refine ⟨fun path listed => ?_, ?_, findPaths_eq_nil_iff_of_notMem⟩
  · obtain ⟨-, -, goal, -, route⟩ := mem_findPaths_iff.mp listed
    exact route.head
  · by_cases isNode : target ∈ graph.nodes
    · rw [iff_true_right (Or.inl isNode)]
      intro path listed
      obtain ⟨-, -, goal, isTarget, route⟩ := mem_findPaths_iff.mp listed
      rw [targetsOf_of_mem isNode, List.mem_singleton] at isTarget
      exact isTarget ▸ route.last
    · rw [or_iff_right isNode, ← findPaths_eq_nil_iff_of_notMem isNode]
      constructor
      · intro ends
        rw [List.eq_nil_iff_forall_not_mem]
        intro path listed
        obtain ⟨start, -, goal, -, route⟩ := mem_findPaths_iff.mp listed
        -- A route ends at a node, and the target is none.
        cases route.last.symm.trans (ends path listed)
        exact isNode (route.target_mem_nodes start)
      · intro none path listed
        rw [none] at listed
        cases listed

/-- The target is no node, and yet a chain is listed. It ends at the node that the first
character of the target names. -/
theorem findPaths_strays :
    let graph := Graph.empty.replay [.addFile "A", .addDependency "A" "B" false]
    "B.js" ∉ graph.nodes ∧ graph.findPaths "A" "B.js" (some 10) = [["A", "B"]] ∧
      ∃ path ∈ graph.findPaths "A" "B.js" (some 10), path.getLast? ≠ some "B.js" := by
  decide +kernel

end ModuleAtlas.Graph
