import ModuleAtlas.Proofs.Build.Cycles
import ModuleAtlas.Proofs.Graph.Forest
import ModuleAtlas.Proofs.Report.Consistency

/-! # Which nodes a report marks as circular

A report marks the nodes of the cycles that one depth-first pass came across. These are the
nodes that some edge bridges in the forest of the pass (`ModuleAtlas.Graph.IsBridged`). All of
them get back to themselves, and every cycle takes a step from a marked node to a marked node,
so nothing is marked exactly if there is no cycle (`ModuleAtlas.scan_marks_bridged`). But other
nodes of a cycle may go unmarked (`ModuleAtlas.detour_is_not_marked`).
-/

namespace ModuleAtlas

namespace Graph

variable {graph : Graph} {node : String}

/-- A way round is a closed chain. -/
theorem exists_isClosedChain (loop : Relation.TransGen graph.HasInternalEdge node node) :
    ∃ chain, graph.IsClosedChain chain := by
  obtain ⟨next, edge, back⟩ := Relation.TransGen.head'_iff.mp loop
  obtain ⟨rest, linked, last⟩ := List.exists_isChain_cons_of_relationReflTransGen back
  refine ⟨node :: next :: rest, by simp, ?_, List.isChain_cons_cons.mpr ⟨edge, linked⟩⟩
  rw [List.getLast?_cons_cons, List.getLast?_eq_some_getLast (List.cons_ne_nil _ _), last]
  rfl

private theorem mem_of_closingEdge {cycle : List String} {source target : String}
    (closes : closingEdge cycle = (some source, some target)) :
    source ∈ cycle ∧ target ∈ cycle := by
  obtain ⟨before, last⟩ := Prod.mk.inj closes
  exact ⟨List.mem_of_mem_dropLast (List.mem_of_getLast? before), List.mem_of_getLast? last⟩

end Graph

namespace Report

/-- The nodes that a report marks as circular. -/
def circularIds (report : Report) : List String :=
  (report.nodes.filter (·.hasCircularDependency)).map NodeReport.id

variable {graph : Graph} {cycles : List (List String)} {modes : Option ModeFiles}

private theorem hasCircularDependency_iff {node : NodeReport}
    (member : node ∈ (create graph cycles modes).nodes) :
    node.hasCircularDependency = true ↔ ∃ cycle ∈ cycles, node.id ∈ cycle := by
  obtain ⟨id, -, rfl⟩ := List.mem_map.mp member
  dsimp only
  rw [decide_eq_true_iff, List.mem_eraseDups, List.mem_flatten]

private theorem mem_circularIds_iff {id : String} (isNode : id ∈ graph.allNodes) :
    id ∈ (create graph cycles modes).circularIds ↔ ∃ cycle ∈ cycles, id ∈ cycle := by
  unfold circularIds
  simp only [List.mem_map, List.mem_filter]
  constructor
  · intro marked
    obtain ⟨node, ⟨member, circular⟩, rfl⟩ := marked
    exact (hasCircularDependency_iff member).mp circular
  · intro onCycle
    obtain ⟨node, member, rfl⟩ := List.mem_map.mp (ids_create graph cycles modes ▸ isNode)
    exact ⟨node, ⟨member, (hasCircularDependency_iff member).mpr onCycle⟩, rfl⟩

private theorem length_circularIds (report : Report) :
    report.circularIds.length = report.nodes.countP (·.hasCircularDependency) := by
  rw [circularIds, List.length_map, List.countP_eq_length_filter]

section Detected

variable (rooted : graph.IsRooted)
include rooted

private theorem hasCircularDependency_iff_isBridged {node : NodeReport}
    (member : node ∈ (create graph graph.detectCycles modes).nodes) :
    node.hasCircularDependency = true ↔ graph.IsBridged node.id :=
  (hasCircularDependency_iff member).trans
    (Graph.mem_reported_iff (fun _ _ edge => rooted.source _ edge) node.id)

/-- A marked node gets back to itself. -/
theorem transGen_of_mem_circularIds {id : String}
    (marked : id ∈ (create graph graph.detectCycles modes).circularIds) :
    Relation.TransGen graph.HasInternalEdge id id := by
  obtain ⟨node, chosen, rfl⟩ := List.mem_map.mp marked
  obtain ⟨member, circular⟩ := List.mem_filter.mp chosen
  exact ((hasCircularDependency_iff_isBridged rooted member).mp circular).transGen

/-- Every closed chain takes the closing step of a reported cycle, whose nodes are all marked. -/
theorem exists_marked_step {chain : List String} (closed : graph.IsClosedChain chain) :
    ∃ source ∈ (create graph graph.detectCycles modes).circularIds,
      ∃ target ∈ (create graph graph.detectCycles modes).circularIds,
        [source, target] <:+: chain := by
  have reached : ∀ node ∈ chain, graph.Reached node := by
    intro node member
    obtain ⟨next, edge⟩ := closed.exists_edge member
    exact ⟨node, rooted.source _ edge, .refl⟩
  obtain ⟨cycle, reported, source, target, closes, step⟩ := closed.exists_closing reached
  have marked : ∀ id ∈ cycle, id ∈ (create graph graph.detectCycles modes).circularIds := by
    intro id member
    have isNode := Graph.mem_nodes_of_mem_detectCycles reported member
    exact (mem_circularIds_iff (rooted.mem_allNodes.mpr isNode)).mpr ⟨cycle, reported, member⟩
  obtain ⟨early, late⟩ := Graph.mem_of_closingEdge closes
  exact ⟨source, marked source early, target, marked target late, step⟩

private theorem circular_eq_length_circularIds :
    (create graph graph.detectCycles modes).summary.filesWithCircularDependencies =
      (create graph graph.detectCycles modes).circularIds.length := by
  rw [length_circularIds]
  apply circular_create rooted
  exact fun cycle reported node member => Graph.mem_nodes_of_mem_detectCycles reported member

private theorem circular_eq_zero_iff :
    (create graph graph.detectCycles modes).summary.filesWithCircularDependencies = 0 ↔
      ∀ id, ¬ Relation.TransGen graph.HasInternalEdge id id := by
  rw [circular_eq_length_circularIds rooted, List.length_eq_zero_iff,
    List.eq_nil_iff_forall_not_mem]
  constructor
  · intro unmarked id loop
    obtain ⟨chain, closed⟩ := Graph.exists_isClosedChain loop
    obtain ⟨source, marked, -⟩ := exists_marked_step rooted closed
    exact unmarked source marked
  · exact fun acyclic id marked => acyclic id (transGen_of_mem_circularIds rooted marked)

end Detected

end Report

/-- A scan reports on the graph of a build and on the cycles that are detected in it. -/
theorem report_of_scan {tree : FileTree} {root : Path} {options : ScanOptions}
    {result : ScanResult} (found : (scan tree root options).2 = .ok result) :
    result.graph.IsRooted ∧
      result.report = Report.create result.graph result.graph.detectCycles result.modes := by
  obtain ⟨policy, -, -, rfl⟩ := scan_eq_ok_iff.mp found
  exact ⟨Build.isRooted_build (scannedProject tree root policy) options.toRequest, rfl⟩

/-- A report of a scan marks a node exactly if an edge bridges it in the forest of the pass, so
exactly if it is on a reported cycle. A marked node gets back to itself, every closed chain takes
a step from a marked node to a marked node, the marked nodes are counted, and there are none
exactly if no node gets back to itself. -/
theorem scan_marks_bridged (tree : FileTree) (root : Path) (options : ScanOptions)
    (result : ScanResult) (found : (scan tree root options).2 = .ok result) :
    let graph := result.graph
    let report := result.report
    (∀ node ∈ report.nodes, node.hasCircularDependency = true ↔ graph.IsBridged node.id) ∧
      (∀ node ∈ report.nodes, node.hasCircularDependency = true ↔
        ∃ cycle ∈ report.cycles, node.id ∈ cycle) ∧
      (∀ id ∈ report.circularIds, Relation.TransGen graph.HasInternalEdge id id) ∧
      (∀ chain, graph.IsClosedChain chain → ∃ source ∈ report.circularIds,
        ∃ target ∈ report.circularIds, [source, target] <:+: chain) ∧
      report.summary.filesWithCircularDependencies = report.circularIds.length ∧
      (report.summary.filesWithCircularDependencies = 0 ↔
        ∀ id, ¬ Relation.TransGen graph.HasInternalEdge id id) := by
  intro graph report
  obtain ⟨rooted, created⟩ := report_of_scan found
  have isReport : report = Report.create graph graph.detectCycles result.modes := created
  rw [isReport]
  exact ⟨fun node member => Report.hasCircularDependency_iff_isBridged rooted member,
    fun node member => Report.hasCircularDependency_iff member,
    fun id marked => Report.transGen_of_mem_circularIds rooted marked,
    fun chain closed => Report.exists_marked_step rooted closed,
    Report.circular_eq_length_circularIds rooted, Report.circular_eq_zero_iff rooted⟩

/-- Three files on two cycles: the first imports both others, the second imports the first, and
the third imports the second. -/
def detourProject : Project where
  tree := .ofEntries
    [(["p"], .directory true true),
     (["p", "a.js"], .file "import './b.js'import './c.js'".toUTF8.toList true),
     (["p", "b.js"], .file "import './a.js'".toUTF8.toList true),
     (["p", "c.js"], .file "import './b.js'".toUTF8.toList true)]
  root := projectRoot
  policy := .strict

private theorem child_detourProject :
    detourProject.Child "a.js" (.file "import './b.js'import './c.js'".toUTF8.toList true) ∧
      detourProject.Child "b.js" (.file "import './a.js'".toUTF8.toList true) ∧
      detourProject.Child "c.js" (.file "import './b.js'".toUTF8.toList true) := by
  have opened : detourProject.tree.IsOpen ["p"] := by decide
  exact ⟨⟨rfl, opened, rfl, by decide +kernel⟩, ⟨rfl, opened, rfl, by decide +kernel⟩,
    ⟨rfl, opened, rfl, by decide +kernel⟩⟩

private theorem discover_detourProject :
    (detourProject.tree.discover {} detourProject.root).2 = .ok ["a.js", "b.js", "c.js"] := by cbv

private theorem references?_detourProject :
    detourProject.references? "a.js" = .ok (some ["./b.js", "./c.js"]) ∧
      detourProject.references? "b.js" = .ok (some ["./a.js"]) ∧
      detourProject.references? "c.js" = .ok (some ["./b.js"]) := by
  obtain ⟨first, second, third⟩ := child_detourProject
  have extracted :
      Reference.extract (Text.withLineFeeds "import './b.js'import './c.js'") =
          ["./b.js", "./c.js"] ∧
        Reference.extract (Text.withLineFeeds "import './a.js'") = ["./a.js"] ∧
        Reference.extract (Text.withLineFeeds "import './b.js'") = ["./b.js"] := by
    decide +kernel
  rw [first.references? (Text.Utf8.decode_toUTF8 _), second.references? (Text.Utf8.decode_toUTF8 _),
    third.references? (Text.Utf8.decode_toUTF8 _),
    extracted.1, extracted.2.1, extracted.2.2]
  exact ⟨rfl, rfl, rfl⟩

/-- The changes that the descent through the three files asks for. -/
def detourOperations : List Operation :=
  [.addFile "a.js", .addDependency "a.js" "b.js" false, .addFile "b.js",
    .addDependency "b.js" "a.js" false, .addDependency "a.js" "c.js" false, .addFile "c.js",
    .addDependency "c.js" "b.js" false]

private theorem graph_detourProject :
    (Build.build detourProject { startFile := some "a.js" } Store.empty).store.graph =
      Graph.empty.replay detourOperations := by
  obtain ⟨first, second, third⟩ := child_detourProject
  obtain ⟨readFirst, readSecond, readThird⟩ := references?_detourProject
  have toSecond : detourProject.dependency? "a.js" "./b.js" = some ("b.js", false) :=
    first.dependency?_sibling second (by decide +kernel)
  have toThird : detourProject.dependency? "a.js" "./c.js" = some ("c.js", false) :=
    first.dependency?_sibling third (by decide +kernel)
  have back : detourProject.dependency? "b.js" "./a.js" = some ("a.js", false) :=
    second.dependency?_sibling first (by decide +kernel)
  have across : detourProject.dependency? "c.js" "./b.js" = some ("b.js", false) :=
    third.dependency?_sibling second (by decide +kernel)
  rw [← Project.verdict_eq_internal_iff] at toSecond toThird back across
  let task : Build.Task := ⟨detourProject, .unlimited⟩
  let known : Finset String := ["a.js", "b.js", "c.js"].toFinset
  have visited := @Build.graph_build_eq_visit detourProject { startFile := some "a.js" } _ "a.js"
    "a.js" discover_detourProject rfl (by decide) first.startPoint?
  rw [visited]
  -- The second file leads back to the first, which was processed already.
  rw [@Build.Descent.visit_of_references task known "a.js" 0 _ _ (by decide +kernel) rfl readFirst,
    Build.Descent.expand_cons,
    @Build.Descent.follow_of_internal task known "a.js" "./b.js" "b.js" _ toSecond
      (by decide +kernel) (by decide +kernel),
    @Build.Descent.visit_of_references task known "b.js" 1 _ _ (by decide +kernel) rfl readSecond,
    Build.Descent.expand_cons,
    @Build.Descent.follow_of_internal task known "b.js" "./a.js" "a.js" _ back
      (by decide +kernel) (by decide +kernel),
    @Build.Descent.visit_of_processed task known "a.js" 2 _ (by decide +kernel)]
  simp only [Build.Descent.andThen, Build.Descent.expand_nil]
  rw [Build.Descent.expand_cons,
    @Build.Descent.follow_of_internal task known "a.js" "./c.js" "c.js" _ toThird
      (by decide +kernel) (by decide +kernel),
    @Build.Descent.visit_of_references task known "c.js" 1 _ _ (by decide +kernel) rfl readThird,
    Build.Descent.expand_cons,
    @Build.Descent.follow_of_internal task known "c.js" "./b.js" "b.js" _ across
      (by decide +kernel) (by decide +kernel),
    @Build.Descent.visit_of_processed task known "b.js" 2 _ (by decide +kernel)]
  simp only [Build.Descent.andThen, Build.Descent.expand_nil]
  rfl

private theorem scan_detourProject :
    (scan detourProject.tree projectRoot { startFile := some "a.js" }).2 =
      .ok (Scan.analyze projectRoot false (Graph.empty.replay detourOperations)).2 := by
  have root : Build.absoluteRoot detourProject.tree projectRoot = detourProject.root := by
    decide
  have built :
      (Build.build detourProject { startFile := some "a.js" } Store.empty).failure = none :=
    Build.failure_eq_none_of_startPoint? (fun depth => ⟨false, rfl⟩) discover_detourProject rfl
      (by decide) child_detourProject.1.startPoint?
  rw [scan_eq_ok_iff, ← graph_detourProject]
  refine ⟨.strict, rfl, ?_⟩
  unfold scannedProject ScanOptions.toRequest
  rw [root]
  exact ⟨built, rfl⟩

/-- The pass meets the third file last, when the second is finished: only the cycle of the first
two is reported. -/
theorem report_detourProject :
    (Scan.analyze projectRoot false (Graph.empty.replay detourOperations)).2.report =
      Report.create (Graph.empty.replay detourOperations) [["a.js", "b.js", "a.js"]] none := by
  have cycles : (Graph.empty.replay detourOperations).detectCycles =
      [["a.js", "b.js", "a.js"]] := by cbv
  rw [← cycles]
  rfl

/-- The third file gets back to itself, and it is not marked. -/
theorem detour_is_not_marked :
    ∃ result, (scan detourProject.tree projectRoot { startFile := some "a.js" }).2 =
        .ok result ∧
      Relation.TransGen result.graph.HasInternalEdge "c.js" "c.js" ∧
      (∃ node ∈ result.report.nodes, node.id = "c.js" ∧ node.hasCircularDependency = false) ∧
      result.report.summary.filesWithCircularDependencies = 2 := by
  refine ⟨_, scan_detourProject, ?_, ?_⟩
  · have edges : (Graph.empty.replay detourOperations).edges =
        [⟨"a.js", "b.js", false⟩, ⟨"b.js", "a.js", false⟩, ⟨"a.js", "c.js", false⟩,
          ⟨"c.js", "b.js", false⟩] := by decide +kernel
    have joined : ∀ source target, (⟨source, target, false⟩ : Edge) ∈
        (Graph.empty.replay detourOperations).edges →
          (Graph.empty.replay detourOperations).HasInternalEdge source target :=
      fun _ _ recorded => recorded
    rw [edges] at joined
    have across := Relation.TransGen.single (joined "c.js" "b.js" (by simp))
    exact (across.tail (joined "b.js" "a.js" (by simp))).tail (joined "a.js" "c.js" (by simp))
  · rw [report_detourProject]
    decide +kernel

/-- No edge bridges that file, and the other two are marked. -/
theorem scan_marks_bridged_of_detour :
    ∃ result, (scan detourProject.tree projectRoot { startFile := some "a.js" }).2 =
        .ok result ∧
      ¬ result.graph.IsBridged "c.js" ∧ result.report.circularIds.length = 2 := by
  obtain ⟨bridged, -, -, -, count, -⟩ := scan_marks_bridged _ _ _ _ scan_detourProject
  refine ⟨_, scan_detourProject, ?_, ?_⟩
  · rw [report_detourProject] at bridged
    obtain ⟨node, member, isThird, unmarked⟩ : ∃ node ∈ (Report.create
        (Graph.empty.replay detourOperations) [["a.js", "b.js", "a.js"]] none).nodes,
        node.id = "c.js" ∧ node.hasCircularDependency = false := by decide +kernel
    intro under
    have marked := (bridged node member).mpr (isThird ▸ under)
    rw [unmarked] at marked
    cases marked
  · rw [← count, report_detourProject]
    decide +kernel

end ModuleAtlas
