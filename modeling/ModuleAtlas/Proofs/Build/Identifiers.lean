import ModuleAtlas.Proofs.Build.Targets

/-! # Files and externals by name

To a strict policy, a reference that stands for an external dependency was resolved to
an absolute path, and one that stands for an internal dependency to a name below the
root, so a leading slash tells the two apart
(`ModuleAtlas.Project.isExternal_eq_beginsWith`). Scanned files have no leading slash
either, and every node of a build was scanned or is the target of an edge
(`ModuleAtlas.Build.mem_nodes_cases`). So the name of a node alone decides whether it
is external (`ModuleAtlas.Build.isExternalNode_iff_beginsWith`).
-/

namespace ModuleAtlas

namespace Project

variable {project : Project} {file reference target : String}

private theorem beginsWith_of_internal
    (entry : project.dependency? file reference = some (target, false)) :
    Text.beginsWith target "/" = false := by
  obtain ⟨parts, lands⟩ := exists_lands_of_dependency? entry
  rw [lands.named]
  exact Path.beginsWith_relativeText (Path.isProper_of_relativeTo? lands.below)

private theorem beginsWith_of_external (absolute : project.root.isAbsolute = true)
    (strict : project.policy = .strict)
    (entry : project.dependency? file reference = some (target, true)) :
    Text.beginsWith target "/" = true := by
  rcases external_cases entry with ⟨isPath, rfl⟩ | ⟨lenient, -⟩
  · exact Resolution.beginsWith_path (beginsWith_fullPath absolute file) isPath
  · cases strict.symm.trans lenient

/-- To a strict policy, the dependency that a reference stands for is external exactly if
its name begins with a slash. -/
theorem isExternal_eq_beginsWith {isExternal : Bool} (absolute : project.root.isAbsolute = true)
    (strict : project.policy = .strict)
    (entry : project.dependency? file reference = some (target, isExternal)) :
    isExternal = Text.beginsWith target "/" := by
  cases isExternal with
  | true => exact (beginsWith_of_external absolute strict entry).symm
  | false => exact (beginsWith_of_internal entry).symm

end Project

namespace Graph

/-- A node is external exactly if it was not scanned and every edge into it is
external. -/
theorem isExternalNode_iff {graph : Graph} {node : String} (member : node ∈ graph.nodes) :
    graph.isExternalNode node = true ↔
      node ∉ graph.scanned ∧ ∀ edge ∈ graph.edges, edge.target = node → edge.isExternal = true := by
  have selected : graph.selected node = [node] := if_pos (decide_eq_true member)
  have unscanned : graph.isScanned node = false ↔ node ∉ graph.scanned := by
    rw [← graph.isScanned_iff, Bool.not_eq_true]
  unfold isExternalNode
  rw [selected, List.all_cons, List.all_nil, Bool.and_true, Bool.and_eq_true, Bool.not_eq_true',
    unscanned, List.all_eq_true]
  simp only [inEdges, List.mem_filter, decide_eq_true_eq, and_imp]

/-- A node that is the source of no edge has no out-edges. -/
theorem outEdges_eq_nil {graph : Graph} {node : String}
    (none : ∀ edge ∈ graph.edges, edge.source ≠ node) : graph.outEdges node = [] :=
  List.filter_eq_nil_iff.mpr fun edge member => by simpa using none edge member

end Graph

namespace Build

section Names

variable {project : Project} {request : BuildRequest} {file node : String}

private theorem isExternal_edge_eq (absolute : project.root.isAbsolute = true)
    (strict : project.policy = .strict) {edge : Edge}
    (member : edge ∈ (build project request Store.empty).store.graph.edges) :
    edge.isExternal = Text.beginsWith edge.target "/" := by
  obtain ⟨text, -, reference, -, entry⟩ := exists_reference_of_edge member
  exact Project.isExternal_eq_beginsWith absolute strict entry

/-- To a strict policy, a node of a build is external exactly if its name begins with a
slash. -/
theorem isExternalNode_iff_beginsWith (absolute : project.root.isAbsolute = true)
    (strict : project.policy = .strict)
    (member : node ∈ (build project request Store.empty).store.graph.nodes) :
    (build project request Store.empty).store.graph.isExternalNode node = true ↔
      Text.beginsWith node "/" = true := by
  rw [Graph.isExternalNode_iff member]
  constructor
  · rintro ⟨unscanned, external⟩
    rcases mem_nodes_cases member with scanned | ⟨edge, present, rfl⟩
    · exact absurd scanned unscanned
    · rw [← isExternal_edge_eq absolute strict present]
      exact external edge present rfl
  · intro slash
    constructor
    · intro scanned
      rw [beginsWith_of_scanned scanned] at slash
      cases slash
    · rintro edge present rfl
      rw [isExternal_edge_eq absolute strict present]
      exact slash

end Names

/-- A strict build keeps files and externals apart by name. An edge is external exactly
if its target begins with a slash, so no node is the target of both kinds of edges; a
node is external exactly if it begins with a slash; and an external node is not scanned
and no edge leaves it. -/
theorem strict_build_names_apart (tree : FileTree) (written : Path) (request : BuildRequest) :
    let project : Project := ⟨tree, absoluteRoot tree written, .strict⟩
    let graph := (build project request Store.empty).store.graph
    (∀ edge ∈ graph.edges, edge.isExternal = true ↔ Text.beginsWith edge.target "/" = true) ∧
    (∀ node, ¬ ((∃ source, ⟨source, node, false⟩ ∈ graph.edges) ∧
      ∃ source, ⟨source, node, true⟩ ∈ graph.edges)) ∧
    (∀ node ∈ graph.nodes,
      graph.isExternalNode node = true ↔ Text.beginsWith node "/" = true) ∧
    ∀ node ∈ graph.nodes, graph.isExternalNode node = true →
      node ∉ graph.scanned ∧ graph.outEdges node = [] := by
  intro project graph
  have absolute : project.root.isAbsolute = true := isAbsolute_absoluteRoot tree written
  have named : ∀ edge ∈ graph.edges, edge.isExternal = Text.beginsWith edge.target "/" :=
    fun edge member => isExternal_edge_eq absolute rfl member
  refine ⟨fun edge member => by rw [named edge member], ?_, fun node member =>
    isExternalNode_iff_beginsWith absolute rfl member, fun node member external => ?_⟩
  · rintro node ⟨⟨source, internal⟩, ⟨other, external⟩⟩
    have clash := (named _ internal).trans (named _ external).symm
    cases clash
  · have unscanned := ((Graph.isExternalNode_iff member).mp external).1
    refine ⟨unscanned, Graph.outEdges_eq_nil fun edge present leaves => ?_⟩
    exact unscanned (leaves ▸ source_mem_scanned_build present)

/-- A file outside the root is external by its path. -/
theorem dependency?_outside {project : Project} (root : project.root = projectRoot)
    (present : project.tree.entry? ["o.js"] = some (.file [] true)) (file : String) :
    project.dependency? file "/o.js" = some ("/o.js", true) := by
  have regular : project.tree.isFile? (Path.ofString "/o.js").toString = .ok true := by
    have found : project.tree.stat (Path.ofString "/o.js").toString = .ok (.file [] true) :=
      @FileTree.stat_of_isOpen _ _ [] "o.js" _ (by decide +kernel) (by decide +kernel)
        (by decide +kernel) (FileTree.isOpen_nil _) present (Entry.file_ne_link _ _)
    unfold FileTree.isFile? FileTree.probe
    rw [found]
    rfl
  have outside : (Path.ofString "/o.js").relativeTo? projectRoot = none := by
    decide +kernel
  rw [Project.dependency?_of_beginsWith file (by decide +kernel) regular, root, outside]

/-- A file that imports its neighbour and a file outside the root. -/
def crossingProject : Project where
  tree := .ofEntries
    [(["p"], .directory true true),
     (["p", "a.js"], .file "import './b.js'import '/o.js'".toUTF8.toList true),
     (["p", "b.js"], .file [] true), (["o.js"], .file [] true)]
  root := projectRoot
  policy := .strict

private theorem dependencies_crossingProject :
    (build crossingProject { startFile := some "a.js" } Store.empty).store.graph.dependencies
      "a.js" = [("b.js", false), ("/o.js", true)] := by
  have opened : crossingProject.tree.IsOpen ["p"] := by decide
  have first : crossingProject.Child "a.js"
      (.file "import './b.js'import '/o.js'".toUTF8.toList true) :=
    ⟨rfl, opened, rfl, by decide +kernel⟩
  have second : crossingProject.Child "b.js" (.file [] true) :=
    ⟨rfl, opened, rfl, by decide +kernel⟩
  have internal : crossingProject.dependency? "a.js" "./b.js" = some ("b.js", false) :=
    first.dependency?_sibling second (by decide +kernel)
  have external : crossingProject.dependency? "a.js" "/o.js" = some ("/o.js", true) :=
    dependency?_outside rfl rfl "a.js"
  have unbroken : Text.withLineFeeds "import './b.js'import '/o.js'" =
      "import './b.js'import '/o.js'" := by cbv
  have read := first.readText (Text.Utf8.decode_toUTF8 _)
  rw [unbroken] at read
  have extracted : Reference.extract "import './b.js'import '/o.js'" = ["./b.js", "/o.js"] := by
    decide +kernel
  have discovery : (crossingProject.tree.discover {} crossingProject.root).2 =
      .ok ["a.js", "b.js"] := by cbv
  rw [dependencies_of_startPoint? rfl discovery rfl (by decide) first.startPoint? read, extracted,
    Project.entries, List.filterMap_cons_some internal, List.filterMap_cons_some external]
  decide

/-- Of the two files that are imported, the one outside the root is external. -/
theorem crossing_names_apart :
    let graph := (build crossingProject { startFile := some "a.js" } Store.empty).store.graph
    graph.dependencies "a.js" = [("b.js", false), ("/o.js", true)] ∧
      graph.isExternalNode "b.js" = false ∧ graph.isExternalNode "/o.js" = true ∧
        graph.outEdges "/o.js" = [] := by
  intro graph
  have listed : graph.dependencies "a.js" = _ := dependencies_crossingProject
  have root : absoluteRoot crossingProject.tree projectRoot = crossingProject.root := by
    decide
  have apart := strict_build_names_apart crossingProject.tree projectRoot
    { startFile := some "a.js" }
  rw [root] at apart
  obtain ⟨-, -, external, stays⟩ := apart
  have isNode : ∀ target isExternal, (target, isExternal) ∈ graph.dependencies "a.js" →
      target ∈ graph.nodes := fun target isExternal member =>
    (graph.edges_nodes _ (Graph.mem_edges_iff_mem_dependencies.mpr member)).2
  rw [listed] at isNode
  have near : "b.js" ∈ graph.nodes := isNode "b.js" false (by decide)
  have far : "/o.js" ∈ graph.nodes := isNode "/o.js" true (by decide)
  have isExternal : graph.isExternalNode "/o.js" = true :=
    (external "/o.js" far).mpr (by decide +kernel)
  refine ⟨listed, ?_, isExternal, (stays "/o.js" far isExternal).2⟩
  rw [← Bool.not_eq_true]
  exact fun claimed => absurd ((external "b.js" near).mp claimed) (by decide +kernel)

end Build

end ModuleAtlas
