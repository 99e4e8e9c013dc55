import ModuleAtlas.Proofs.Build.Identifiers
import ModuleAtlas.Proofs.Graph.Closure
import ModuleAtlas.Proofs.Graph.Cycles
import ModuleAtlas.Proofs.Scan.Outcome

/-! # What a report says of a scan

The nodes of a report are found by walking from the scanned files, its counts are taken
from the whole graph, from the cycles and from the modes. They agree since every edge of a
scanned project leaves a scanned file and every node was scanned or is the target of an
edge (`ModuleAtlas.Graph.IsRooted`): then the walk meets every node once
(`ModuleAtlas.Graph.IsRooted.allNodes_perm`) and the lists of dependencies hold every edge
once (`ModuleAtlas.Graph.outEdges_perm`).
-/

namespace ModuleAtlas

namespace Graph

/-- Every edge leaves a scanned file, and every node was scanned or is the target of an
edge. -/
structure IsRooted (graph : Graph) : Prop where
  source : ∀ edge ∈ graph.edges, edge.source ∈ graph.scanned
  node : ∀ node ∈ graph.nodes, node ∈ graph.scanned ∨ ∃ edge ∈ graph.edges, edge.target = node

variable {graph : Graph} {node : String}

private theorem nodup_allNodes (graph : Graph) : graph.allNodes.Nodup := Text.nodup_eraseDups _

/-- The scanned files come first, in the order in which they were scanned. -/
theorem scanned_prefix_allNodes (graph : Graph) : graph.scanned <+: graph.allNodes := by
  rw [allNodes, List.eraseDups_append, Text.eraseDups_of_nodup graph.scanned_nodup]
  exact List.prefix_append _ _

/-- A walk from the scanned files meets every node. -/
theorem IsRooted.mem_allNodes (rooted : graph.IsRooted) :
    node ∈ graph.allNodes ↔ node ∈ graph.nodes := by
  rw [allNodes, List.mem_eraseDups, List.mem_append, List.mem_flatMap]
  constructor
  · rintro (scanned | ⟨file, -, met⟩)
    · exact graph.scanned_nodes node scanned
    · obtain ⟨edge, member, -, rfl⟩ := mem_successors_iff.mp met
      exact (graph.edges_nodes edge member).2
  · intro member
    apply (rooted.node node member).imp_right
    rintro ⟨edge, recorded, rfl⟩
    exact ⟨edge.source, rooted.source edge recorded,
      mem_successors_iff.mpr ⟨edge, recorded, rfl, rfl⟩⟩

/-- In a rooted graph a report lists every node, in an order of its own. -/
theorem IsRooted.allNodes_perm (rooted : graph.IsRooted) :
    graph.allNodes.Perm graph.nodes :=
  (List.perm_ext_iff_of_nodup graph.nodup_allNodes graph.nodes_nodup).mpr
    fun _ => rooted.mem_allNodes

/-- Every edge is found once among those that leave the nodes of a list, if the list has
every source once. -/
theorem outEdges_perm {nodes : List String} (distinct : nodes.Nodup)
    (covers : ∀ edge ∈ graph.edges, edge.source ∈ nodes) :
    (nodes.flatMap graph.outEdges).Perm graph.edges := by
  have once : graph.edges.Nodup := List.Nodup.of_map Edge.ends graph.edges_distinct
  have apart : (nodes.flatMap graph.outEdges).Nodup := by
    refine List.nodup_flatMap.mpr ⟨fun node _ => once.filter _, distinct.imp ?_⟩
    intro first second different edge early late
    simp only [outEdges, List.mem_filter, decide_eq_true_eq] at early late
    exact different (early.2.symm.trans late.2)
  rw [List.perm_ext_iff_of_nodup apart once]
  intro edge
  simp only [List.mem_flatMap, outEdges, List.mem_filter, decide_eq_true_eq]
  constructor
  · rintro ⟨-, -, recorded, -⟩
    exact recorded
  · intro recorded
    exact ⟨edge.source, covers edge recorded, recorded, rfl⟩

/-- The lists of dependencies have as many entries together as the graph has edges. -/
theorem IsRooted.sum_length_dependencies (rooted : graph.IsRooted) :
    (graph.allNodes.map fun node => (graph.dependencies node).length).sum = graph.edges.length := by
  have covers : ∀ edge ∈ graph.edges, edge.source ∈ graph.allNodes := by
    intro edge recorded
    exact rooted.mem_allNodes.mpr (graph.scanned_nodes _ (rooted.source edge recorded))
  rw [← (outEdges_perm graph.nodup_allNodes covers).length_eq, List.length_flatMap]
  simp only [dependencies, List.length_map]

private theorem mem_nodes_of_mem_dependencies {dependency : String × Bool}
    (listed : dependency ∈ graph.dependencies node) : dependency.1 ∈ graph.nodes :=
  (graph.edges_nodes _ (mem_edges_iff_mem_dependencies.mpr listed)).2

/-- A reported cycle runs through nodes of the graph. -/
theorem mem_nodes_of_mem_detectCycles {cycle : List String} (reported : cycle ∈ graph.detectCycles)
    (member : node ∈ cycle) : node ∈ graph.nodes := by
  have isCycle := graph.reports_detectCycles.cycle cycle reported
  obtain ⟨next, edge⟩ := isCycle.toIsClosedChain.exists_edge member
  exact (graph.edges_nodes _ edge).1

end Graph

/-- Modes with different names, each with nodes of a graph and none of them twice. -/
structure ModeFiles.IsWithin (modes : ModeFiles) (graph : Graph) : Prop where
  names : (modes.map Prod.fst).Nodup
  distinct : ∀ mode ∈ modes, mode.2.Nodup
  nodes : ∀ mode ∈ modes, mode.2 ⊆ graph.nodes

private theorem Graph.isWithin_analyzeModes (graph : Graph) :
    graph.analyzeModes.IsWithin graph := by
  constructor
  case names => exact (by decide : (DeploymentMode.all.map DeploymentMode.name).Nodup)
  case distinct =>
    intro mode listed
    obtain ⟨kind, -, rfl⟩ := List.mem_map.mp listed
    exact (Text.sortTexts_perm _).nodup_iff.mpr (graph.nodup_closure _)
  case nodes =>
    intro mode listed
    obtain ⟨kind, -, rfl⟩ := List.mem_map.mp listed
    exact fun file member => graph.closure_subset _ ((Text.sortTexts_perm _).subset member)

/-- The modes that hold a file hold the one of a given name exactly if that one has the
file. -/
theorem ModeFiles.IsWithin.mem_holding_iff {modes : ModeFiles} {graph : Graph}
    {mode : String × List String} (within : modes.IsWithin graph) (listed : mode ∈ modes)
    (file : String) :
    mode.1 ∈ (modes.filter fun other => file ∈ other.2).map Prod.fst ↔ file ∈ mode.2 := by
  simp only [List.mem_map, List.mem_filter, decide_eq_true_eq]
  constructor
  · rintro ⟨other, ⟨member, holds⟩, same⟩
    exact List.inj_on_of_nodup_map within.names member listed same ▸ holds
  · intro holds
    exact ⟨mode, ⟨listed, holds⟩, rfl⟩

/-- Whether a node is listed under a mode. -/
def NodeReport.isIn (node : NodeReport) (mode : String) : Bool :=
  decide (mode ∈ node.deploymentModes.getD [])

namespace Report

/-- The identifiers of the nodes of a report. -/
def ids (report : Report) : List String := report.nodes.map NodeReport.id

/-- A report says the same throughout, and the same as the graph that it reports on. -/
structure AgreesWith (report : Report) (graph : Graph) : Prop where
  ids_nodup : report.ids.Nodup
  mem_ids : ∀ id, id ∈ report.ids ↔ id ∈ graph.nodes
  scanned_first : graph.scanned <+: report.ids
  isExternal : ∀ node ∈ report.nodes, node.isExternal = graph.isExternalNode node.id
  dependencies : ∀ node ∈ report.nodes, node.dependencies = graph.dependencies node.id
  dependency_mem : ∀ node ∈ report.nodes, ∀ dependency ∈ node.dependencies,
    dependency.1 ∈ report.ids
  cycle_mem : ∀ cycle ∈ report.cycles, ∀ element ∈ cycle, element ∈ report.ids
  totalFiles : report.summary.totalFiles = graph.statistics.nodes
  internalFiles : report.summary.internalFiles = graph.statistics.internal
  externalFiles : report.summary.externalFiles = graph.statistics.external
  totalDependencies : report.summary.totalDependencies = graph.statistics.edges
  sum_dependencies : report.summary.totalDependencies =
    (report.nodes.map fun node => node.dependencies.length).sum
  circular : report.summary.filesWithCircularDependencies =
    report.nodes.countP (·.hasCircularDependency)
  modes : ∀ modes ∈ report.deploymentModes, ∀ mode ∈ modes,
    mode.2.files ⊆ report.ids ∧ mode.2.fileCount = report.nodes.countP (·.isIn mode.1)

variable {graph : Graph} {cycles : List (List String)} {modes : Option ModeFiles}

/-- The nodes of a report are the scanned files, then their other dependencies. -/
@[simp]
theorem ids_create (graph : Graph) (cycles : List (List String)) (modes : Option ModeFiles) :
    (create graph cycles modes).ids = graph.allNodes := by
  unfold ids create
  rw [List.map_map]
  exact List.map_id graph.allNodes

private theorem mem_nodes_create {node : NodeReport}
    (member : node ∈ (create graph cycles modes).nodes) :
    node.isExternal = graph.isExternalNode node.id ∧
      node.dependencies = graph.dependencies node.id := by
  obtain ⟨id, -, rfl⟩ := List.mem_map.mp member
  exact ⟨rfl, rfl⟩

/-- The files counted as circular are those that are marked so. -/
theorem circular_create (rooted : graph.IsRooted)
    (onCycle : ∀ cycle ∈ cycles, ∀ node ∈ cycle, node ∈ graph.nodes) :
    (create graph cycles modes).summary.filesWithCircularDependencies =
      (create graph cycles modes).nodes.countP (·.hasCircularDependency) := by
  unfold create
  dsimp only
  rw [List.countP_map]
  apply (Text.countP_mem graph.nodup_allNodes (Text.nodup_eraseDups _) _).symm
  intro node listed
  obtain ⟨cycle, reported, member⟩ := List.mem_flatten.mp (List.mem_eraseDups.mp listed)
  exact rooted.mem_allNodes.mpr (onCycle cycle reported node member)

/-- The files of a mode are nodes, and as many nodes are listed under it. -/
theorem modes_create (rooted : graph.IsRooted)
    (within : ∀ listed ∈ modes, listed.IsWithin graph) :
    ∀ shown ∈ (create graph cycles modes).deploymentModes, ∀ mode ∈ shown,
      mode.2.files ⊆ graph.allNodes ∧
        mode.2.fileCount = (create graph cycles modes).nodes.countP (·.isIn mode.1) := by
  intro shown some mode member
  obtain ⟨listed, rfl, rfl⟩ := Option.map_eq_some_iff.mp some
  obtain ⟨origin, fromList, rfl⟩ := List.mem_map.mp member
  have held := within listed rfl
  have inside : origin.2 ⊆ graph.allNodes :=
    fun file has => rooted.mem_allNodes.mpr (held.nodes origin fromList has)
  refine ⟨inside, ?_⟩
  unfold create
  dsimp only
  rw [List.countP_map,
    ← Text.countP_mem graph.nodup_allNodes (held.distinct origin fromList) inside]
  apply List.countP_congr
  intro file _
  simp only [Function.comp_apply, NodeReport.isIn, Option.map_some, Option.getD_some,
    decide_eq_true_eq, held.mem_holding_iff fromList file]

private theorem agreesWith_create (rooted : graph.IsRooted)
    (onCycle : ∀ cycle ∈ cycles, ∀ node ∈ cycle, node ∈ graph.nodes)
    (within : ∀ listed ∈ modes, listed.IsWithin graph) :
    (create graph cycles modes).AgreesWith graph := by
  have walked := rooted.allNodes_perm
  have external :
      (create graph cycles modes).summary.externalFiles = graph.statistics.external := by
    unfold create Graph.statistics
    dsimp only
    rw [List.countP_map, ← walked.countP_eq]
    rfl
  constructor
  case ids_nodup => exact ids_create graph cycles modes ▸ graph.nodup_allNodes
  case mem_ids => exact fun id => ids_create graph cycles modes ▸ rooted.mem_allNodes
  case scanned_first => exact ids_create graph cycles modes ▸ graph.scanned_prefix_allNodes
  case isExternal => exact fun node member => (mem_nodes_create member).1
  case dependencies => exact fun node member => (mem_nodes_create member).2
  case dependency_mem =>
    intro node member dependency listed
    rw [ids_create, rooted.mem_allNodes]
    rw [(mem_nodes_create member).2] at listed
    exact Graph.mem_nodes_of_mem_dependencies listed
  case cycle_mem =>
    intro cycle reported element member
    rw [ids_create, rooted.mem_allNodes]
    exact onCycle cycle reported element member
  case totalFiles =>
    unfold create Graph.statistics
    dsimp only
    rw [List.length_map, walked.length_eq]
  case internalFiles =>
    have all := List.length_eq_countP_add_countP graph.isExternalNode (l := graph.nodes)
    have split : (create graph cycles modes).summary.internalFiles =
        graph.allNodes.length - (create graph cycles modes).summary.externalFiles := by
      unfold create
      dsimp only
      rw [List.length_map]
    rw [split, external, walked.length_eq]
    unfold Graph.statistics
    dsimp only
    simp only [Bool.not_eq_true, Bool.decide_eq_false] at all
    omega
  case externalFiles => exact external
  case totalDependencies => rfl
  case sum_dependencies =>
    unfold create
    dsimp only
    rw [List.map_map, ← rooted.sum_length_dependencies]
    rfl
  case circular => exact circular_create rooted onCycle
  case modes => exact ids_create graph cycles modes ▸ modes_create rooted within

end Report

namespace Build

/-- The graph of a build is rooted: edges leave scanned files, and no other node stands alone. -/
theorem isRooted_build (project : Project) (request : BuildRequest) :
    (build project request Store.empty).store.graph.IsRooted :=
  ⟨fun _ => source_mem_scanned_build, fun _ => mem_nodes_cases⟩

end Build

/-- The report of a scan says the same throughout and the same as the graph of the scan,
and it has modes exactly if they were asked for. -/
theorem scan_report_agrees (tree : FileTree) (root : Path) (options : ScanOptions)
    (result : ScanResult) (found : (scan tree root options).2 = .ok result) :
    result.report.AgreesWith result.graph ∧
      result.report.deploymentModes.isSome = options.analyzeModes := by
  obtain ⟨policy, -, -, rfl⟩ := scan_eq_ok_iff.mp found
  have rooted := Build.isRooted_build (scannedProject tree root policy) options.toRequest
  constructor
  · apply Report.agreesWith_create rooted
    · exact fun cycle reported node member => Graph.mem_nodes_of_mem_detectCycles reported member
    · intro listed analyzed
      cases asked : options.analyzeModes with
      | false =>
          simp only [Scan.analyze, asked] at analyzed
          cases analyzed
      | true =>
          simp only [Scan.analyze, asked] at analyzed
          cases analyzed
          exact Graph.isWithin_analyzeModes _
  · cases asked : options.analyzeModes <;> rfl

/-- Two test files that import each other; the first imports a file outside the root too. -/
def testProject : Project where
  tree := .ofEntries
    [(["p"], .directory true true),
     (["p", "test_a.js"], .file "import './test_b.js'import '/o.js'".toUTF8.toList true),
     (["p", "test_b.js"], .file "import './test_a.js'".toUTF8.toList true),
     (["o.js"], .file [] true)]
  root := projectRoot
  policy := .strict

private theorem child_testProject :
    testProject.Child "test_a.js"
        (.file "import './test_b.js'import '/o.js'".toUTF8.toList true) ∧
      testProject.Child "test_b.js" (.file "import './test_a.js'".toUTF8.toList true) := by
  have opened : testProject.tree.IsOpen ["p"] := by decide
  exact ⟨⟨rfl, opened, rfl, by decide +kernel⟩, ⟨rfl, opened, rfl, by decide +kernel⟩⟩

private theorem discover_testProject :
    (testProject.tree.discover {} testProject.root).2 = .ok ["test_a.js", "test_b.js"] := by cbv

private theorem references?_testProject :
    testProject.references? "test_a.js" = .ok (some ["./test_b.js", "/o.js"]) ∧
      testProject.references? "test_b.js" = .ok (some ["./test_a.js"]) := by
  obtain ⟨first, second⟩ := child_testProject
  have extracted :
      Reference.extract (Text.withLineFeeds "import './test_b.js'import '/o.js'") =
          ["./test_b.js", "/o.js"] ∧
        Reference.extract (Text.withLineFeeds "import './test_a.js'") = ["./test_a.js"] := by
    decide +kernel
  rw [first.references? (Text.Utf8.decode_toUTF8 _), second.references? (Text.Utf8.decode_toUTF8 _),
    extracted.1, extracted.2]
  exact ⟨rfl, rfl⟩

/-- The changes that the descent through the test files asks for. -/
def testOperations : List Operation :=
  [.addFile "test_a.js", .addDependency "test_a.js" "test_b.js" false, .addFile "test_b.js",
    .addDependency "test_b.js" "test_a.js" false, .addDependency "test_a.js" "/o.js" true]

private theorem build_testProject :
    let built := Build.build testProject {} Store.empty
    built.store.graph = Graph.empty.replay testOperations ∧ built.failure = none := by
  intro built
  obtain ⟨first, second⟩ := child_testProject
  obtain ⟨readFirst, readSecond⟩ := references?_testProject
  have forth : testProject.dependency? "test_a.js" "./test_b.js" = some ("test_b.js", false) :=
    first.dependency?_sibling second (by decide +kernel)
  have back : testProject.dependency? "test_b.js" "./test_a.js" = some ("test_a.js", false) :=
    second.dependency?_sibling first (by decide +kernel)
  have out : testProject.dependency? "test_a.js" "/o.js" = some ("/o.js", true) :=
    Build.dependency?_outside rfl rfl "test_a.js"
  rw [← Project.verdict_eq_internal_iff] at forth back
  rw [← Project.verdict_eq_external_iff] at out
  let task : Build.Task := ⟨testProject, .unlimited⟩
  let known : Finset String := ["test_a.js", "test_b.js"].toFinset
  obtain ⟨graph, ended⟩ := @Build.build_eq_visitPoints testProject {} _ discover_testProject
  have visited : Build.Descent.visitAll task known Build.Descent.start ["test_a.js", "test_b.js"] =
      (⟨{"test_b.js", "test_a.js"}, testOperations⟩, none) := by
    rw [Build.Descent.visitAll,
      @Build.Descent.visit_of_references task known "test_a.js" 0 _ _ (by decide +kernel) rfl
        readFirst, Build.Descent.expand_cons,
      @Build.Descent.follow_of_internal task known "test_a.js" "./test_b.js" "test_b.js" _ forth
        (by decide +kernel) (by decide +kernel),
      @Build.Descent.visit_of_references task known "test_b.js" 1 _ _ (by decide +kernel) rfl
        readSecond, Build.Descent.expand_cons,
      @Build.Descent.follow_of_internal task known "test_b.js" "./test_a.js" "test_a.js" _ back
        (by decide +kernel) (by decide +kernel),
      @Build.Descent.visit_of_processed task known "test_a.js" 2 _ (by decide +kernel)]
    simp only [Build.Descent.andThen, Build.Descent.expand_nil]
    rw [Build.Descent.expand_cons,
      @Build.Descent.follow_of_external task known "test_a.js" "/o.js" "/o.js" _ out]
    simp only [Build.Descent.andThen, Build.Descent.expand_nil]
    -- The second file was visited on the way.
    rw [Build.Descent.visitAll,
      @Build.Descent.visit_of_processed task known "test_b.js" 0 _ (by decide +kernel)]
    rfl
  have points : Build.Descent.visitPoints task known (Build.startingPoints testProject none
      ["test_a.js", "test_b.js"]) = _ := visited
  exact ⟨graph.trans (congrArg (·.1.graph) points), ended.trans (congrArg (·.2) points)⟩

/-- What the scan of a project with a test reports. -/
theorem scan_testProject :
    (scan testProject.tree projectRoot { analyzeModes := true }).2 =
      .ok (Scan.analyze projectRoot true (Graph.empty.replay testOperations)).2 := by
  have root : Build.absoluteRoot testProject.tree projectRoot = testProject.root := by
    decide
  obtain ⟨graph, succeeded⟩ := build_testProject
  rw [scan_eq_ok_iff, ← graph]
  refine ⟨.strict, rfl, ?_⟩
  unfold scannedProject ScanOptions.toRequest
  rw [root]
  exact ⟨succeeded, rfl⟩

/-- The seeds of the two modes in the graph of that project. -/
theorem seeds_testProject :
    let graph := Graph.empty.replay testOperations
    (graph.seeds .development = [] ∧ graph.seeds .staging = [] ∧ graph.seeds .production = []) ∧
      graph.seeds .testing = ["test_a.js", "test_b.js"] := by
  decide +kernel

/-- The cycle of the test files and the files of their mode. -/
theorem analyses_testProject :
    let graph := Graph.empty.replay testOperations
    graph.detectCycles = [["test_a.js", "test_b.js", "test_a.js"]] ∧
      graph.analyzeModes = [("development", []),
        ("testing", ["/o.js", "test_a.js", "test_b.js"]), ("staging", []), ("production", [])] := by
  intro graph
  obtain ⟨⟨development, staging, production⟩, testing⟩ := seeds_testProject
  have unused : Text.sortTexts (graph.closure []) = [] := by cbv
  have used : graph.closure ["test_a.js", "test_b.js"] = ["test_a.js", "test_b.js", "/o.js"] := by
    cbv
  have sorted : Text.sortTexts ["test_a.js", "test_b.js", "/o.js"] =
      ["/o.js", "test_a.js", "test_b.js"] :=
    Text.sortTexts_eq_of_pairwise (by decide) (by decide +kernel)
  refine ⟨by cbv, ?_⟩
  simp only [Graph.analyzeModes, DeploymentMode.all, List.map_cons, List.map_nil,
    DeploymentMode.name, development, staging, production, testing, unused, used, sorted, graph]

/-- Two test files that import each other are reported as a cycle, and with the file outside the
root as what testing uses. -/
theorem test_cycle_report_agrees :
    ∃ result, (scan testProject.tree projectRoot { analyzeModes := true }).2 = .ok result ∧
      result.report.cycles = [["test_a.js", "test_b.js", "test_a.js"]] ∧
      result.modes = some [("development", []),
        ("testing", ["/o.js", "test_a.js", "test_b.js"]), ("staging", []), ("production", [])] ∧
      result.report.summary.externalFiles = 1 ∧
      result.report.AgreesWith result.graph ∧ result.report.deploymentModes.isSome = true := by
  obtain ⟨cycles, modes⟩ := analyses_testProject
  exact ⟨_, scan_testProject, cycles, congrArg some modes, by decide +kernel,
    scan_report_agrees _ _ _ _ scan_testProject⟩

end ModuleAtlas
