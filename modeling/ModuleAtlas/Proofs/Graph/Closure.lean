import Mathlib.Data.List.Nodup
import Mathlib.Logic.Relation
import ModuleAtlas.Graph.Modes
import ModuleAtlas.Proofs.Text.Listing

/-! # What a worklist takes in

A worklist takes in nothing twice and nothing that its members do not lead to. What is
unvisited and on the list is taken in, and so is every unvisited successor of what is
taken in (`ModuleAtlas.Graph.mem_takeIn_of_dependsOn`). So the closure of some nodes is
all that edges lead to from them (`ModuleAtlas.Graph.mem_closure_iff`), in whatever order
they are given.
-/

namespace ModuleAtlas.Graph

/-- A recorded edge leads from one node to another. -/
def DependsOn (graph : Graph) (source target : String) : Prop :=
  ∃ edge ∈ graph.edges, edge.source = source ∧ edge.target = target

/-- The successors of a node are what recorded edges lead to from it. -/
theorem mem_successors_iff {graph : Graph} {source target : String} :
    target ∈ graph.successors source ↔ graph.DependsOn source target := by
  simp only [successors, outEdges, DependsOn, List.mem_map, List.mem_filter, decide_eq_true_eq,
    and_assoc]

section Worklist

variable {graph : Graph} {unvisited pending : List String} {node next : String}

/-- Both ends of a dependency are nodes. -/
theorem mem_nodes_of_dependsOn (depends : graph.DependsOn node next) :
    node ∈ graph.nodes ∧ next ∈ graph.nodes := by
  obtain ⟨edge, recorded, rfl, rfl⟩ := depends
  exact graph.edges_nodes edge recorded

private theorem takeIn_nil (graph : Graph) (unvisited : List String) :
    graph.takeIn unvisited [] = [] := by
  rw [takeIn.eq_def]

private theorem takeIn_of_mem (inside : node ∈ unvisited) (pending : List String) :
    graph.takeIn unvisited (node :: pending) =
      node :: graph.takeIn (unvisited.erase node) (graph.successors node ++ pending) := by
  rw [takeIn.eq_def]
  exact if_pos inside

private theorem takeIn_of_notMem (outside : node ∉ unvisited) (pending : List String) :
    graph.takeIn unvisited (node :: pending) = graph.takeIn unvisited pending := by
  rw [takeIn.eq_def]
  exact if_neg outside

private theorem takeIn_subset (graph : Graph) (unvisited pending : List String) :
    graph.takeIn unvisited pending ⊆ unvisited := by
  induction unvisited, pending using takeIn.induct graph with
  | case1 unvisited =>
      rw [takeIn_nil]
      exact List.nil_subset unvisited
  | case2 unvisited current pending inside ih =>
      rw [takeIn_of_mem inside]
      exact List.cons_subset.mpr ⟨inside, fun other member => List.mem_of_mem_erase (ih member)⟩
  | case3 unvisited current pending outside ih =>
      rw [takeIn_of_notMem outside]
      exact ih

private theorem nodup_takeIn (distinct : unvisited.Nodup) :
    (graph.takeIn unvisited pending).Nodup := by
  induction unvisited, pending using takeIn.induct graph with
  | case1 unvisited =>
      rw [takeIn_nil]
      exact List.nodup_nil
  | case2 unvisited current pending inside ih =>
      rw [takeIn_of_mem inside]
      refine List.nodup_cons.mpr ⟨fun again => ?_, ih (distinct.erase current)⟩
      have left := graph.takeIn_subset _ _ again
      exact (distinct.mem_erase_iff.mp left).1 rfl
  | case3 unvisited current pending outside ih =>
      rw [takeIn_of_notMem outside]
      exact ih distinct

/-- What is on the list and unvisited is taken in. -/
theorem mem_takeIn_of_mem (listed : node ∈ pending) (inside : node ∈ unvisited) :
    node ∈ graph.takeIn unvisited pending := by
  induction unvisited, pending using takeIn.induct graph with
  | case1 unvisited => cases listed
  | case2 unvisited current pending current_inside ih =>
      rw [takeIn_of_mem current_inside]
      by_cases same : node = current
      · exact same ▸ List.mem_cons_self
      · apply List.mem_cons_of_mem
        apply ih
        · apply List.mem_append_right
          exact (List.mem_cons.mp listed).resolve_left same
        · exact (List.mem_erase_of_ne same).mpr inside
  | case3 unvisited current pending outside ih =>
      rw [takeIn_of_notMem outside]
      apply ih _ inside
      exact (List.mem_cons.mp listed).resolve_left fun same => outside (same ▸ inside)

/-- An unvisited successor of what is taken in is taken in. -/
theorem mem_takeIn_of_dependsOn (taken : node ∈ graph.takeIn unvisited pending)
    (depends : graph.DependsOn node next) (inside : next ∈ unvisited) :
    next ∈ graph.takeIn unvisited pending := by
  induction unvisited, pending using takeIn.induct graph with
  | case1 unvisited =>
      rw [takeIn_nil] at taken
      cases taken
  | case2 unvisited current pending current_inside ih =>
      rw [takeIn_of_mem current_inside] at taken ⊢
      by_cases same : next = current
      · exact same ▸ List.mem_cons_self
      · have waiting : next ∈ unvisited.erase current := (List.mem_erase_of_ne same).mpr inside
        apply List.mem_cons_of_mem
        rcases List.mem_cons.mp taken with rfl | later
        · have next := mem_successors_iff.mpr depends
          exact mem_takeIn_of_mem (List.mem_append_left pending next) waiting
        · exact ih later waiting
  | case3 unvisited current pending outside ih =>
      rw [takeIn_of_notMem outside] at taken ⊢
      exact ih taken inside

/-- What is taken in is what members of the list lead to. -/
theorem exists_path_of_mem_takeIn (taken : node ∈ graph.takeIn unvisited pending) :
    ∃ seed ∈ pending, Relation.ReflTransGen graph.DependsOn seed node := by
  induction unvisited, pending using takeIn.induct graph with
  | case1 unvisited =>
      rw [takeIn_nil] at taken
      cases taken
  | case2 unvisited current pending inside ih =>
      rw [takeIn_of_mem inside] at taken
      rcases List.mem_cons.mp taken with rfl | later
      · exact ⟨node, List.mem_cons_self, .refl⟩
      · obtain ⟨seed, listed, path⟩ := ih later
        rcases List.mem_append.mp listed with successor | waiting
        · exact ⟨current, List.mem_cons_self, path.head (mem_successors_iff.mp successor)⟩
        · exact ⟨seed, List.mem_cons_of_mem current waiting, path⟩
  | case3 unvisited current pending outside ih =>
      rw [takeIn_of_notMem outside] at taken
      obtain ⟨seed, listed, path⟩ := ih taken
      exact ⟨seed, List.mem_cons_of_mem current listed, path⟩

end Worklist

section Closure

variable {graph : Graph} {seeds : List String} {node : String}

/-- A closure holds nodes only. -/
theorem closure_subset (graph : Graph) (seeds : List String) : graph.closure seeds ⊆ graph.nodes :=
  graph.takeIn_subset graph.nodes seeds

/-- No node is listed twice in a closure. -/
theorem nodup_closure (graph : Graph) (seeds : List String) : (graph.closure seeds).Nodup :=
  nodup_takeIn graph.nodes_nodup

/-- The closure of some nodes is all that edges lead to from them. -/
theorem mem_closure_iff (inside : seeds ⊆ graph.nodes) :
    node ∈ graph.closure seeds ↔
      ∃ seed ∈ seeds, Relation.ReflTransGen graph.DependsOn seed node := by
  constructor
  · exact exists_path_of_mem_takeIn
  · rintro ⟨seed, listed, path⟩
    induction path with
    | refl => exact mem_takeIn_of_mem listed (inside listed)
    | tail _ depends ih =>
        exact mem_takeIn_of_dependsOn ih depends (mem_nodes_of_dependsOn depends).2

/-- The order of the seeds does not show in their closure, once it is sorted. -/
theorem sortTexts_closure_eq {others : List String} (inside : seeds ⊆ graph.nodes)
    (same : others.Perm seeds) :
    Text.sortTexts (graph.closure others) = Text.sortTexts (graph.closure seeds) := by
  apply Text.sortTexts_eq_of_perm
  rw [List.perm_ext_iff_of_nodup (graph.nodup_closure others) (graph.nodup_closure seeds)]
  intro node
  rw [mem_closure_iff inside, mem_closure_iff fun seed listed => inside (same.subset listed)]
  simp only [same.mem_iff]

/-- The seeds of a mode are nodes. -/
theorem seeds_subset (graph : Graph) (mode : DeploymentMode) : graph.seeds mode ⊆ graph.nodes :=
  fun file member => graph.scanned_nodes file (List.mem_filter.mp member).1

end Closure

end ModuleAtlas.Graph
