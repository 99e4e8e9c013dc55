import ModuleAtlas.Proofs.Build.Trees
import ModuleAtlas.Proofs.Report.Consistency

/-! # Scans do not depend on listing orders

A build asks the file tree for single entries and for the sorted names of discovery, so two
trees that differ in the order of their listings are built alike, notice by notice
(`ModuleAtlas.FileTree.Relists.build_eq`). A mode is found from a set of seeds, which may be
iterated in any order: the closure is the same set, and it is sorted in the end
(`ModuleAtlas.Graph.analyzeModesBy_eq`). No other set is iterated: the discovered files are
only asked whether they hold a file.
-/

namespace ModuleAtlas

namespace Build

section Run

variable {task twin : Task}

/-- Two tasks have equal runs if they enter files and record references alike. -/
theorem run_congr (entering : enter twin = enter task)
    (adding : addReference twin = addReference task) (progress : Progress) (frames : List Frame) :
    run twin progress frames = run task progress frames := by
  induction progress, frames using run_induction task with
  | nil progress => rw [run_nil, run_nil]
  | close progress file depth frames ih => rw [run_close, run_close, ih]
  | pass depth references frames added stale ih =>
      rw [run_pass added stale, ← ih]
      rw [← adding] at added
      exact run_pass added stale depth references frames
  | fail depth references frames added fresh failed =>
      rw [run_fail added fresh failed]
      rw [← adding] at added
      rw [← entering] at failed
      exact run_fail added fresh failed references frames
  | descend depth references frames added fresh entered ih =>
      rw [run_descend added fresh entered, ← ih]
      rw [← adding] at added
      rw [← entering] at entered
      exact run_descend added fresh entered references frames

private theorem traverse_congr (entering : enter twin = enter task)
    (adding : addReference twin = addReference task) (file : String) (progress : Progress) :
    traverse twin file progress = traverse task file progress := by
  unfold traverse
  simp only [entering, run_congr entering adding]

private theorem traverseAll_congr (entering : enter twin = enter task)
    (adding : addReference twin = addReference task) (files : List String) (progress : Progress) :
    traverseAll twin progress files = traverseAll task progress files := by
  induction files generalizing progress with
  | nil => rfl
  | cons file files ih =>
      unfold traverseAll
      simp only [traverse_congr entering adding, ih]

end Run

end Build

namespace FileTree.Relists

open Build

variable {project : Project} {other : FileTree}

private theorem ofPath_eq {tree : FileTree} (same : other.Relists tree) :
    Reference.ofPath other = Reference.ofPath tree := by
  funext path
  unfold Reference.ofPath
  rw [same.readText_eq]

private theorem enter_eq (same : other.Relists project.tree) (limit : DepthLimit) :
    enter ⟨project.onTree other, limit⟩ = enter ⟨project, limit⟩ := by
  funext depth file progress
  unfold enter
  simp only [Project.tree_onTree, Project.fullPath_onTree, same.isFile?_eq, same.ofPath_eq]

private theorem fromStart_eq (same : other.Relists project.tree) (limit : DepthLimit)
    (start : String) (progress : Progress) :
    fromStart ⟨project.onTree other, limit⟩ start progress =
      fromStart ⟨project, limit⟩ start progress := by
  unfold fromStart
  simp only [traverse_congr (same.enter_eq limit) (same.sameKinds.addReference_eq limit),
    Project.tree_onTree, Project.root_onTree, same.isFile?_eq]

private theorem traversal_eq (same : other.Relists project.tree) (limit : DepthLimit)
    (start : Option String) (files : List String) (progress : Progress) :
    traversal ⟨project.onTree other, limit⟩ start files progress =
      traversal ⟨project, limit⟩ start files progress := by
  unfold traversal
  simp only [traverseAll_congr (same.enter_eq limit) (same.sameKinds.addReference_eq limit),
    same.fromStart_eq]

/-- Two trees with the same entries are built alike. -/
theorem build_eq (same : other.Relists project.tree) (request : BuildRequest) (store : Store) :
    build (project.onTree other) request store = build project request store := by
  unfold build openingNotices
  simp only [Project.tree_onTree, Project.root_onTree, same.discover_eq, same.traversal_eq]

end FileTree.Relists

/-- An order in which the files of each mode, a set, are iterated. -/
structure SetOrder where
  iterate : DeploymentMode → List String → List String
  perm : ∀ mode files, (iterate mode files).Perm files

namespace Graph

/-- The files and modules used in every mode, if sets are iterated in the given order: the
closure is taken from the seeds as they come, and sorted from the order in which it comes. -/
def analyzeModesBy (order : SetOrder) (graph : Graph) : ModeFiles :=
  DeploymentMode.all.map fun mode =>
    (mode.name, Text.sortTexts
      (order.iterate mode (graph.closure (order.iterate mode (graph.seeds mode)))))

/-- The modes come out the same in whatever order a set is gone through. -/
theorem analyzeModesBy_eq (order : SetOrder) (graph : Graph) :
    graph.analyzeModesBy order = graph.analyzeModes := by
  apply List.map_congr_left
  intro mode _
  refine Prod.ext rfl ?_
  calc Text.sortTexts (order.iterate mode (graph.closure (order.iterate mode (graph.seeds mode))))
    _ = Text.sortTexts (graph.closure (order.iterate mode (graph.seeds mode))) :=
        Text.sortTexts_eq_of_perm (order.perm mode _)
    _ = Text.sortTexts (graph.closure (graph.seeds mode)) :=
        sortTexts_closure_eq (graph.seeds_subset mode) (order.perm mode _)

end Graph

/-- What a scan finds if sets are iterated in the given order. -/
def scanBy (order : SetOrder) (tree : FileTree) (root : Path) (options : ScanOptions) :
    Except Failure ScanResult :=
  (scan tree root options).2.map fun result =>
    { result with modes := result.modes.map fun _ => result.graph.analyzeModesBy order }

private theorem FileTree.Relists.scan_eq {other tree : FileTree} (same : other.Relists tree)
    (root : Path) (options : ScanOptions) : scan other root options = scan tree root options := by
  have rooted : Build.absoluteRoot other root = Build.absoluteRoot tree root := by
    have here : other.workingPath = tree.workingPath := Path.eq_of_parts rfl same.workingDir
    unfold Build.absoluteRoot
    rw [here]
  have built (policy : ExternalPolicy) (request : BuildRequest) :
      Build.build ⟨other, Build.absoluteRoot tree root, policy⟩ request Store.empty =
        Build.build ⟨tree, Build.absoluteRoot tree root, policy⟩ request Store.empty :=
    @FileTree.Relists.build_eq ⟨tree, Build.absoluteRoot tree root, policy⟩ other same request
      Store.empty
  unfold scan
  simp only [rooted, built]

private theorem scanBy_eq (order : SetOrder) (tree : FileTree) (root : Path)
    (options : ScanOptions) :
    scanBy order tree root options = (scan tree root options).2 := by
  cases outcome : (scan tree root options).2 with
  | error failure =>
      unfold scanBy
      rw [outcome]
      rfl
  | ok result =>
      have modes :
          result.modes.map (fun _ => result.graph.analyzeModesBy order) = result.modes := by
        obtain ⟨policy, -, -, rfl⟩ := scan_eq_ok_iff.mp outcome
        rw [Graph.analyzeModesBy_eq]
        cases asked : options.analyzeModes <;> rfl
      unfold scanBy
      rw [outcome, Except.map, modes]

/-- Two scans of the same entries end alike, in whatever order each directory lists them and
sets are iterated: with the same failure, or with the same graph, its files and edges in the
same order, the same cycles and the same modes, so with the same text of the report. What
they report on the way is the same too. -/
theorem scan_independent_of_order (tree other : FileTree) (same : other.Relists tree)
    (first second : SetOrder) (root : Path) (options : ScanOptions) :
    scan other root options = scan tree root options ∧
      scanBy second other root options = scanBy first tree root options ∧
        scanBy first tree root options = (scan tree root options).2 := by
  refine ⟨same.scan_eq root options, ?_, scanBy_eq first tree root options⟩
  rw [scanBy_eq, scanBy_eq, same.scan_eq]

/-- The tree with every directory listed backwards. -/
def FileTree.reversed (tree : FileTree) : FileTree :=
  { tree with
    entries := tree.entries.reverse
    distinct := by
      rw [List.map_reverse, List.nodup_reverse]
      exact tree.distinct
    named := fun entry member => tree.named entry (List.mem_reverse.mp member) }

/-- Sets iterated in the order in which they were filled. -/
def SetOrder.kept : SetOrder := ⟨fun _ files => files, fun _ _ => .refl _⟩

/-- Sets iterated backwards. -/
def SetOrder.reversed : SetOrder :=
  ⟨fun _ files => files.reverse, fun _ files => files.reverse_perm⟩

/-- A tree that lists its directories backwards is scanned in the same order, and testing uses the
same files if it is followed from its two seeds backwards. -/
theorem reversed_scan_eq :
    let tree := testProject.tree
    let options : ScanOptions := { analyzeModes := true }
    (tree.reversed.children ["p"]).map Prod.fst ≠ (tree.children ["p"]).map Prod.fst ∧
      tree.reversed.Relists tree ∧
      scan tree.reversed projectRoot options = scan tree projectRoot options ∧
      ∃ result, scanBy .reversed tree.reversed projectRoot options = .ok result ∧
        result.graph.scanned = ["test_a.js", "test_b.js"] ∧
        SetOrder.reversed.iterate .testing (result.graph.seeds .testing) =
          ["test_b.js", "test_a.js"] ∧
        result.modes = some [("development", []),
          ("testing", ["/o.js", "test_a.js", "test_b.js"]), ("staging", []),
          ("production", [])] := by
  intro tree options
  have same : tree.reversed.Relists tree := FileTree.relists_of_perm rfl (List.reverse_perm _)
  obtain ⟨scanned, again, plain⟩ :=
    scan_independent_of_order tree tree.reversed same .kept .reversed projectRoot options
  have found := again.trans (plain.trans scan_testProject)
  exact ⟨by decide, same, scanned, _, found, rfl, congrArg List.reverse seeds_testProject.2,
    congrArg some analyses_testProject.2⟩

end ModuleAtlas
