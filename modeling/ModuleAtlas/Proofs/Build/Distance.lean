import ModuleAtlas.Proofs.Build.Depth
import ModuleAtlas.Proofs.Build.Identifiers

/-! # How far a build goes from its start file

Every file that a build with a depth limit expands was met from a file one less deep, along an
edge that is recorded. So the recorded edges lead from the start file to every scanned file,
within the limit and through scanned files only (`ModuleAtlas.Build.Surveys.exists_leads`), and
a node that no such chain leads to was recorded as the target of an edge and nothing more
(`ModuleAtlas.Build.scanned_near_start`).
-/

namespace ModuleAtlas

namespace Graph

variable {graph : Graph} {source middle target : String} {chain : List String}

/-- A chain of internal edges leads from one node to another. -/
structure Leads (graph : Graph) (source target : String) (chain : List String) : Prop where
  head : chain.head? = some source
  last : chain.getLast? = some target
  linked : chain.IsChain graph.HasInternalEdge

private theorem leads_singleton (graph : Graph) (node : String) : graph.Leads node node [node] :=
  ⟨rfl, rfl, List.isChain_singleton node⟩

private theorem Leads.concat (leads : graph.Leads source middle chain)
    (edge : graph.HasInternalEdge middle target) :
    graph.Leads source target (chain ++ [target]) := by
  refine ⟨?_, List.getLast?_concat, ?_⟩
  · rw [List.head?_append, leads.head]
    rfl
  · apply leads.linked.append (List.isChain_singleton target)
    intro last isLast first isFirst
    cases leads.last.symm.trans isLast
    cases isFirst
    exact edge

end Graph

namespace Build

/-- The recorded edges lead from the start file to every expanded file, as many as the file is
deep, and each of them leads to an expanded file. -/
theorem Surveys.exists_leads {task : Task} {bound : Nat} {point file : String}
    {known : List String} {final : Progress} (surveys : Surveys task bound point known final [])
    {depth : Nat} (expanded : (file, depth) ∈ final.depths) :
    ∃ chain, final.graph.Leads point file chain ∧ chain ⊆ final.graph.scanned ∧
      chain.length = depth + 1 := by
  have scanned := surveys.mem_scanned expanded
  induction depth generalizing file with
  | zero =>
      rcases surveys.layered.led (file, 0) expanded with start | ⟨-, importer, -, -, deeper⟩
      · cases start
        refine ⟨[point], final.graph.leads_singleton point, ?_, rfl⟩
        exact List.cons_subset.mpr ⟨scanned, List.nil_subset _⟩
      · cases deeper
  | succ depth ih =>
      rcases surveys.layered.led (file, depth + 1) expanded with start | ⟨-, ⟨importer, above⟩,
        listed, edge, deeper⟩
      · cases start
      · cases Nat.succ.inj deeper
        obtain ⟨chain, leads, inside, length⟩ := ih listed (surveys.mem_scanned listed)
        refine ⟨chain ++ [file], leads.concat edge, ?_, by simp [length]⟩
        exact List.append_subset.mpr
          ⟨inside, List.cons_subset.mpr ⟨scanned, List.nil_subset _⟩⟩

variable {project : Project} {request : BuildRequest} {start file : String}

/-- A build from a start file scans nothing unless the start file is found. -/
theorem exists_startPoint?_of_mem_scanned (named : request.startFile = some start)
    (nonempty : start ≠ "")
    (scanned : file ∈ (build project request Store.empty).store.graph.scanned) :
    ∃ point, startPoint? project start = .ok (some point) := by
  by_contra unfound
  have unknown := not_exists.mp unfound
  rcases discovery : project.tree.discover request.filter project.root with
    ⟨notices, failure | files⟩
  · rw [(build_eq_of_error discovery).1] at scanned
    cases scanned
  · have isStart : request.startFile.getD "" = start := by
      rw [named]
      rfl
    have untouched := @graph_fromStart_of_unfound ⟨project, request.limit⟩ start unknown
      (opening project request notices files)
    have unscanned : (opening project request notices files).graph = Graph.empty :=
      Progress.graph_noteAll _ _
    rw [(build_eq_traversal discovery).1, traversal_of_named (isStart ▸ nonempty), isStart,
      untouched, unscanned] at scanned
    cases scanned

/-- In a build from a start file with a depth limit, the recorded internal edges lead from the
start file to every scanned file, within the limit and through scanned files. A node that was not
scanned is the target of an edge of a scanned file. What lies farther from the start file, as the
recorded edges go, is not scanned and has no edges. -/
theorem scanned_near_start (project : Project) (request : BuildRequest) (bound : Nat)
    (start : String) (limit : request.limit = .atMost bound)
    (named : request.startFile = some start) (nonempty : start ≠ "") :
    let graph := (build project request Store.empty).store.graph
    (∀ file ∈ graph.scanned, ∃ point chain, startPoint? project start = .ok (some point) ∧
        graph.Leads point file chain ∧ chain ⊆ graph.scanned ∧ chain.length ≤ bound + 1) ∧
      (∀ node ∈ graph.nodes, node ∉ graph.scanned →
        ∃ edge ∈ graph.edges, edge.source ∈ graph.scanned ∧ edge.target = node) ∧
      ∀ node, (∀ point chain, startPoint? project start = .ok (some point) →
          graph.Leads point node chain → bound + 1 < chain.length) →
        node ∉ graph.scanned ∧ graph.outEdges node = [] := by
  intro graph
  have near : ∀ file ∈ graph.scanned, ∃ point chain, startPoint? project start = .ok (some point) ∧
      graph.Leads point file chain ∧ chain ⊆ graph.scanned ∧ chain.length ≤ bound + 1 := by
    intro file scanned
    obtain ⟨point, found⟩ := exists_startPoint?_of_mem_scanned named nonempty scanned
    obtain ⟨final, store, -, surveys⟩ := exists_surveys_build limit named nonempty found
    have same : graph = final.graph := store
    rw [same] at scanned ⊢
    obtain ⟨depth, expanded⟩ := surveys.exists_depth scanned
    obtain ⟨chain, leads, inside, length⟩ := surveys.exists_leads expanded
    have shallow : depth ≤ bound := surveys.layered.bounded _ expanded
    exact ⟨point, chain, found, leads, inside, by omega⟩
  refine ⟨near, fun node member unscanned => ?_, fun node far => ?_⟩
  · rcases mem_nodes_cases member with scanned | ⟨edge, recorded, isTarget⟩
    · exact absurd scanned unscanned
    · exact ⟨edge, recorded, source_mem_scanned_build recorded, isTarget⟩
  · have unscanned : node ∉ graph.scanned := by
      intro scanned
      obtain ⟨point, chain, found, leads, -, short⟩ := near node scanned
      exact absurd (far point chain found leads) (by omega)
    refine ⟨unscanned, Graph.outEdges_eq_nil fun edge recorded leaves => ?_⟩
    exact unscanned (leaves ▸ source_mem_scanned_build recorded)

/-- With a limit of two, at most two edges lead from the start file to the second import. -/
theorem scanned_near_start_of_shortcut :
    let graph := (build shortcutProject { startFile := some "s.js", limit := .atMost 2 }
      Store.empty).store.graph
    "c.js" ∈ graph.scanned ∧ ∃ chain, graph.Leads "s.js" "c.js" chain ∧
      chain ⊆ ["s.js", "a.js", "c.js"] ∧ chain.length ≤ 3 := by
  intro graph
  have scanned : graph.scanned = _ := scanned_shortcutProject
  have member : "c.js" ∈ graph.scanned := scanned ▸ by simp
  have found : startPoint? shortcutProject "s.js" = .ok (some "s.js") :=
    child_shortcutProject.1.startPoint?
  obtain ⟨near, -, -⟩ := scanned_near_start shortcutProject
    { startFile := some "s.js", limit := .atMost 2 } 2 "s.js" rfl rfl (by decide)
  obtain ⟨point, chain, started, leads, inside, short⟩ := near "c.js" member
  cases found.symm.trans started
  exact ⟨member, chain, leads, scanned ▸ inside, short⟩

end Build

end ModuleAtlas
