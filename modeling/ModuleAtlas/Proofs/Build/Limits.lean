import ModuleAtlas.Proofs.Build.Completion
import ModuleAtlas.Proofs.Build.Identifiers
import ModuleAtlas.Proofs.Discovery.Exact

/-! # Depth limits without a start file

A build without a start file starts from every discovered file in turn, so a file that lies
beyond the limit for one start is met again as a start of its own. With any two limits that are
not negative a build fails alike, at the first discovered file that is refused
(`ModuleAtlas.Build.failure_of_unnamed`), and if it does not fail it scans the same files and
records the same dependencies, in whatever order it comes upon them
(`ModuleAtlas.Build.limit_decides_order_only`). A build that fails keeps what it has recorded so
far, and how much that is depends on the limit
(`ModuleAtlas.Build.limit_decides_scanned_of_failed`).
-/

namespace ModuleAtlas

/-- The limit that a depth sets, none without a depth. -/
def DepthLimit.ofBound : Option Nat → DepthLimit
  | none => .unlimited
  | some bound => .atMost bound

private theorem DepthLimit.isExceededBy_ofBound (bound : Option Nat) :
    (ofBound bound).isExceededBy 0 = .ok false := by
  cases bound with
  | none => rfl
  | some bound => exact isExceededBy_zero bound

/-- A request with another depth limit. -/
def BuildRequest.within (request : BuildRequest) (bound : Option Nat) : BuildRequest :=
  { request with limit := .ofBound bound }

/-- Why a file of a project cannot be probed, if it cannot. -/
def Project.refusal? (project : Project) (file : String) : Option Failure :=
  match project.tree.isFile? (project.fullPath file) with
  | .error failure => some failure
  | .ok _ => none

private theorem Project.refusal?_of_error {project : Project} {file : String} {failure : Failure}
    (refused : project.tree.isFile? (project.fullPath file) = .error failure) :
    project.refusal? file = some failure := by
  unfold refusal?
  rw [refused]

/-- A file whose probe answers is not refused. -/
theorem Project.refusal?_of_ok {project : Project} {file : String} {regular : Bool}
    (probed : project.tree.isFile? (project.fullPath file) = .ok regular) :
    project.refusal? file = none := by
  unfold refusal?
  rw [probed]

namespace Build

section Failures

variable {task : Task} {known files : List String} {progress : Progress}

/-- A traversal from several files fails with the first of them that is refused: what was entered
on the way to it was probed. -/
theorem failure_traverseAll (within : task.limit.isExceededBy 0 = .ok false)
    (probed : Probed task.project known progress) (listed : files ⊆ known) :
    (traverseAll task progress files).2 = files.findSome? task.project.refusal? := by
  have comparable := DepthLimit.comparable_of_isExceededBy within
  induction files generalizing progress with
  | nil => rfl
  | cons file files ih =>
      obtain ⟨isKnown, others⟩ := List.cons_subset.mp listed
      rw [traverseAll, List.findSome?_cons]
      by_cases fresh : file ∈ progress.fresh
      · rw [if_pos fresh]
        rcases traverse_cases task known (List.mem_singleton_self file) (Or.inl fresh) with
          ⟨middle, done, steps, tried⟩ | ⟨middle, failure, failed, -⟩
        · have later : Probed task.project known middle := probed_steps probed steps
          obtain ⟨regular, answered⟩ := tried.exists_isFile? within later
          rw [done, Project.refusal?_of_ok answered]
          exact ih later others
        · have refused := isFile?_of_traverse_failed comparable (congrArg Prod.snd failed)
          rw [failed, Project.refusal?_of_error refused]
      · obtain ⟨regular, answered⟩ := probed file isKnown fresh
        rw [if_neg fresh, Project.refusal?_of_ok answered]
        exact ih probed others

end Failures

section Requests

variable {project : Project} {request : BuildRequest} {file node : String}

/-- A build from all files fails if they cannot be discovered, or with the first of them that is
refused. -/
theorem failure_of_unnamed (unnamed : request.startFile.getD "" = "")
    (within : request.limit.isExceededBy 0 = .ok false) :
    (build project request Store.empty).failure =
      match (project.tree.discover request.filter project.root).2 with
      | .error failure => some failure
      | .ok files => files.findSome? project.refusal? := by
  rcases discovery : project.tree.discover request.filter project.root with
    ⟨notices, failure | files⟩
  · exact (build_eq_of_error discovery).2.2
  · have fresh : ((opening project request notices files).note .processingAll).fresh = files :=
      Progress.fresh_noteAll _ _
    have probed : Probed project files
        ((opening project request notices files).note .processingAll) :=
      fun file listed stale => absurd (fresh.symm ▸ listed) stale
    rw [(build_eq_traversal discovery).2.2, traversal_of_unnamed unnamed]
    exact @failure_traverseAll ⟨project, request.limit⟩ files files _ within probed
      (List.Subset.refl files)

/-- A build from all files that succeeds scans the discovered files that can be. -/
theorem mem_scanned_iff_of_unnamed (unnamed : request.startFile.getD "" = "")
    (within : request.limit.isExceededBy 0 = .ok false)
    (succeeded : (build project request Store.empty).failure = none) :
    file ∈ (build project request Store.empty).store.graph.scanned ↔
      file ∈ discovered project request ∧ project.IsRegular file ∧ project.IsReadable file := by
  obtain ⟨first, final, unfolds⟩ := exists_unfolds project request
  have starts : startsFrom project request = discovered project request :=
    startsFrom_of_unnamed unnamed
  have covers := unfolds.covers
  rw [unfolds.store]
  constructor
  · intro scanned
    have origin := covers.origin file scanned
    rw [starts, or_self] at origin
    exact ⟨origin, covers.scannable file scanned⟩
  · intro scannable
    obtain ⟨listed, regular, readable⟩ := scannable
    have tried := unfolds.tried succeeded file (starts ▸ listed)
    exact tried.mem_scanned within covers regular readable

private theorem dependencies_of_unscanned
    (unscanned : file ∉ (build project request Store.empty).store.graph.scanned) :
    (build project request Store.empty).store.graph.dependencies file = [] := by
  apply Graph.dependencies_eq_nil
  intro edge recorded leaves
  exact unscanned (leaves ▸ source_mem_scanned_build recorded)

/-- The nodes of a build are the scanned files and what they depend on. -/
theorem mem_nodes_iff :
    node ∈ (build project request Store.empty).store.graph.nodes ↔
      node ∈ (build project request Store.empty).store.graph.scanned ∨ ∃ source isExternal,
        (node, isExternal) ∈
          (build project request Store.empty).store.graph.dependencies source := by
  constructor
  · intro member
    rcases mem_nodes_cases member with scanned | ⟨edge, recorded, rfl⟩
    · exact Or.inl scanned
    · exact Or.inr ⟨edge.source, edge.isExternal,
        Graph.mem_edges_iff_mem_dependencies.mp recorded⟩
  · intro either
    rcases either with scanned | ⟨source, isExternal, listed⟩
    · exact Graph.scanned_nodes _ node scanned
    · exact (Graph.edges_nodes _ _ (Graph.mem_edges_iff_mem_dependencies.mpr listed)).2

end Requests

end Build

/-- Two graphs differ at most in the order of their files and nodes. -/
structure Graph.SameButOrder (one other : Graph) : Prop where
  scanned : one.scanned.Perm other.scanned
  nodes : one.nodes.Perm other.nodes
  dependencies : ∀ file, one.dependencies file = other.dependencies file

namespace Build

/-- Two builds of a project that scan the same files record the same. -/
theorem sameButOrder_of_scanned {project : Project} {one other : BuildRequest}
    (same : ∀ file, file ∈ (build project one Store.empty).store.graph.scanned ↔
      file ∈ (build project other Store.empty).store.graph.scanned) :
    (build project one Store.empty).store.graph.SameButOrder
      (build project other Store.empty).store.graph := by
  have dependencies : ∀ file, (build project one Store.empty).store.graph.dependencies file =
      (build project other Store.empty).store.graph.dependencies file := by
    intro file
    by_cases scanned : file ∈ (build project one Store.empty).store.graph.scanned
    · obtain ⟨text, read, whole⟩ := exists_dependencies_build scanned
      obtain ⟨again, reread, equal⟩ := exists_dependencies_build ((same file).mp scanned)
      cases read.symm.trans reread
      rw [whole, equal]
    · rw [dependencies_of_unscanned scanned, dependencies_of_unscanned (mt (same file).mpr scanned)]
  refine ⟨?_, ?_, dependencies⟩
  · exact (List.perm_ext_iff_of_nodup (Graph.scanned_nodup _) (Graph.scanned_nodup _)).mpr same
  · apply (List.perm_ext_iff_of_nodup (Graph.nodes_nodup _) (Graph.nodes_nodup _)).mpr
    intro node
    rw [mem_nodes_iff, mem_nodes_iff, same node]
    simp only [dependencies]

/-- Without a start file, two limits that are absent or not negative make no difference to how a
build ends. If it does not fail, the limits decide nothing but the order: the scanned files are
the same, the nodes are the same, and every file has the same dependencies in the same order. A
file that both builds scan has the same dependencies in any case. -/
theorem limit_decides_order_only (project : Project) (request : BuildRequest)
    (unnamed : request.startFile.getD "" = "") (first second : Option Nat) :
    let one := build project (request.within first) Store.empty
    let other := build project (request.within second) Store.empty
    one.failure = other.failure ∧
      (one.failure = none → one.store.graph.SameButOrder other.store.graph) ∧
      ∀ file ∈ one.store.graph.scanned, file ∈ other.store.graph.scanned →
        one.store.graph.dependencies file = other.store.graph.dependencies file := by
  intro one other
  have firstWithin := DepthLimit.isExceededBy_ofBound first
  have secondWithin := DepthLimit.isExceededBy_ofBound second
  have failures : one.failure = other.failure :=
    (@failure_of_unnamed project (request.within first) unnamed firstWithin).trans
      (@failure_of_unnamed project (request.within second) unnamed secondWithin).symm
  refine ⟨failures, fun succeeded => sameButOrder_of_scanned fun file => ?_,
    fun file early late => ?_⟩
  · have scanned := @mem_scanned_iff_of_unnamed project (request.within first) file unnamed
      firstWithin succeeded
    exact scanned.trans (@mem_scanned_iff_of_unnamed project (request.within second) file unnamed
      secondWithin (failures ▸ succeeded)).symm
  · obtain ⟨text, read, whole⟩ := exists_dependencies_build early
    obtain ⟨again, reread, equal⟩ := exists_dependencies_build late
    cases read.symm.trans reread
    exact whole.trans equal.symm

/-- A file that imports the second of its two neighbours. -/
def gapProject (middle : Entry) : Project where
  tree := .ofEntries
    [(["p"], .directory true true),
     (["p", "a.js"], .file "import './c.js'".toUTF8.toList true),
     (["p", "b.js"], middle), (["p", "c.js"], .file [] true)] (by simp) (by simp; decide)
  root := projectRoot
  policy := .strict

private theorem child_gapProject (middle : Entry) :
    (gapProject middle).Child "a.js" (.file "import './c.js'".toUTF8.toList true) ∧
      (gapProject middle).Child "b.js" middle ∧
      (gapProject middle).Child "c.js" (.file [] true) := by
  have opened : (gapProject middle).tree.IsOpen ["p"] := of_decide_eq_true rfl
  have short : ∀ name ∈ ["a.js", "b.js", "c.js"],
      (projectRoot.join name).toString.utf8ByteSize < pathLimit := by decide +kernel
  exact ⟨⟨rfl, opened, rfl, short _ (by simp)⟩, ⟨rfl, opened, rfl, short _ (by simp)⟩,
    ⟨rfl, opened, rfl, short _ (by simp)⟩⟩

section Gap

variable {middle : Entry}
  (plain : (gapProject middle).tree.listsAsDirectory ["p"] ("b.js", middle) = false)
include plain

private theorem discover_gapProject :
    ((gapProject middle).tree.discover {} (gapProject middle).root).2 =
      .ok ["a.js", "b.js", "c.js"] := by
  have short : projectRoot.toString.utf8ByteSize < pathLimit := by decide +kernel
  have children : (gapProject middle).tree.children ["p"] =
      [("a.js", .file "import './c.js'".toUTF8.toList true), ("b.js", middle),
        ("c.js", .file [] true)] := rfl
  have flat : ∀ member ∈ (gapProject middle).tree.children ["p"],
      (gapProject middle).tree.listsAsDirectory ["p"] member = false := by
    rw [children]
    simp only [List.forall_mem_cons, List.not_mem_nil, false_imp_iff, implies_true, and_true]
    exact ⟨rfl, plain, rfl⟩
  have sorted : (Text.sortTexts ["a.js", "b.js", "c.js"]).filter ({} : SourceFilter).supports =
      ["a.js", "b.js", "c.js"] := by cbv
  rw [@FileTree.discover_of_flat (gapProject middle).tree {} (gapProject middle).root [] "p" rfl rfl
    short (of_decide_eq_true rfl) rfl flat]
  exact congrArg Except.ok sorted

/-- Only the entry between the two files can be refused. -/
theorem failure_gapProject (bound : Option Nat) :
    (build (gapProject middle) (BuildRequest.within {} bound) Store.empty).failure =
      (gapProject middle).refusal? "b.js" := by
  obtain ⟨first, -, last⟩ := child_gapProject middle
  have discovery := discover_gapProject plain
  rw [@failure_of_unnamed (gapProject middle) (BuildRequest.within {} bound) rfl
    (DepthLimit.isExceededBy_ofBound bound)]
  unfold BuildRequest.within
  rw [discovery]
  dsimp only
  rw [List.findSome?_cons, Project.refusal?_of_ok first.isRegular, List.findSome?_cons]
  cases (gapProject middle).refusal? "b.js" with
  | some failure => rfl
  | none => rw [List.findSome?_cons, Project.refusal?_of_ok last.isRegular, List.findSome?_nil]

omit plain in
/-- The first file is visited, with a visit to the file that it imports, and the refused entry
after it ends the build. -/
theorem visitAll_gapProject {limit : DepthLimit} {failure : Failure} {next : Descent}
    (within : limit.isExceededBy 0 = .ok false)
    (refused : (gapProject middle).references? "b.js" = .error failure)
    (visited : Descent.visit ⟨gapProject middle, limit⟩ ["a.js", "b.js", "c.js"].toFinset "c.js" 1
      (((Descent.start.mark "a.js").perform [.addFile "a.js"]).perform
        [.addDependency "a.js" "c.js" false]) = (next, none))
    (unseen : "b.js" ∉ next.processed) :
    Descent.visitAll ⟨gapProject middle, limit⟩ ["a.js", "b.js", "c.js"].toFinset Descent.start
      ["a.js", "b.js", "c.js"] = (next.mark "b.js", some failure) := by
  obtain ⟨first, -, last⟩ := child_gapProject middle
  let task : Task := ⟨gapProject middle, limit⟩
  let known : Finset String := ["a.js", "b.js", "c.js"].toFinset
  have toLast : (gapProject middle).dependency? "a.js" "./c.js" = some ("c.js", false) :=
    first.dependency?_sibling last (by decide +kernel)
  rw [← Project.verdict_eq_internal_iff] at toLast
  have extracted : Reference.extract (Text.withLineFeeds "import './c.js'") = ["./c.js"] := by
    decide +kernel
  have read := first.references? (Text.Utf8.decode_toUTF8 _)
  rw [extracted] at read
  rw [Descent.visitAll,
    @Descent.visit_of_references task known "a.js" 0 _ _ (by decide +kernel) within read,
    Descent.expand_cons,
    @Descent.follow_of_internal task known "a.js" "./c.js" "c.js" _ toLast (by decide +kernel)
      (by decide +kernel), visited]
  simp only [Descent.andThen, Descent.expand_nil]
  rw [Descent.visitAll, @Descent.visit_of_refused task known "b.js" 0 _ _ unseen within refused]
  rfl

/-- The file that is imported is scanned with the first one unless the limit is in the way. -/
theorem scanned_gapProject {failure : Failure}
    (refused : (gapProject middle).references? "b.js" = .error failure) :
    (build (gapProject middle) (BuildRequest.within {} (some 0)) Store.empty).store.graph.scanned =
        ["a.js"] ∧
      (build (gapProject middle) (BuildRequest.within {} none) Store.empty).store.graph.scanned =
        ["a.js", "c.js"] := by
  have discovery := discover_gapProject plain
  have read := (child_gapProject middle).2.2.references? rfl
  have extracted : Reference.extract (Text.withLineFeeds "") = [] := by decide +kernel
  rw [extracted] at read
  let known : Finset String := ["a.js", "b.js", "c.js"].toFinset
  constructor
  · let task : Task := ⟨gapProject middle, .atMost 0⟩
    rw [(@build_eq_visitPoints (gapProject middle) (BuildRequest.within {} (some 0)) _
      discovery).1]
    change (Descent.visitAll task known Descent.start ["a.js", "b.js", "c.js"]).1.graph.scanned = _
    rw [visitAll_gapProject rfl refused (@Descent.visit_of_beyond task known "c.js" 1 _ rfl)
      (by decide +kernel)]
    rfl
  · let task : Task := ⟨gapProject middle, .unlimited⟩
    have visited := @Descent.visit_of_references task known "c.js" 1
      (((Descent.start.mark "a.js").perform [.addFile "a.js"]).perform
        [.addDependency "a.js" "c.js" false]) _ (by decide +kernel) rfl read
    rw [Descent.expand_nil] at visited
    rw [(@build_eq_visitPoints (gapProject middle) (BuildRequest.within {} none) _ discovery).1]
    change (Descent.visitAll task known Descent.start ["a.js", "b.js", "c.js"]).1.graph.scanned = _
    rw [visitAll_gapProject rfl refused visited (by decide +kernel)]
    rfl

end Gap

/-- A link to a name that is too long leads nowhere, and looking at it is refused. -/
theorem longLink_gapProject :
    (gapProject (.link longName)).tree.listsAsDirectory ["p"] ("b.js", .link longName) = false ∧
      (gapProject (.link longName)).tree.Refuses ((gapProject (.link longName)).fullPath "b.js")
        .nameTooLong := by
  have long : nameLimit < longName.utf8ByteSize := by
    rw [utf8ByteSize_longName]
    exact Nat.lt_succ_self nameLimit
  have nonempty : longName ≠ "" := by
    intro empty
    rw [empty] at long
    cases long
  have clean : '/' ∉ longName.toList := fun slash =>
    absurd (FileTree.eq_of_mem_longName slash) (by decide)
  have searchable : (gapProject (.link longName)).tree.entry? ["p"] =
      some (.directory true true) := rfl
  have present : (gapProject (.link longName)).tree.entry? (["p"] ++ ["b.js"]) =
      some (.link longName) := rfl
  have walked : (gapProject (.link longName)).tree.walk true linkLimit ["p"] ["b.js"] =
      .error .nameTooLong :=
    (FileTree.walk_link searchable present clean nonempty).trans
      (FileTree.walk_of_long_name searchable long)
  constructor
  · unfold FileTree.listsAsDirectory
    dsimp only
    rw [walked]
  · refine ⟨?_, rfl⟩
    unfold FileTree.stat
    rw [(child_gapProject (.link longName)).2.1.locate]
    exact congrArg (fun location => bind location _) walked

/-- Between two files, the second of which the first imports, a link that is refused ends the
build. Without a limit both files were scanned by then, with a limit of zero only the first. -/
theorem limit_decides_scanned_of_failed :
    let shallow := build (gapProject (.link longName)) (BuildRequest.within {} (some 0)) Store.empty
    let deep := build (gapProject (.link longName)) (BuildRequest.within {} none) Store.empty
    shallow.failure = some (.file .nameTooLong ((gapProject (.link longName)).fullPath "b.js")) ∧
      deep.failure = shallow.failure ∧
        shallow.store.graph.scanned = ["a.js"] ∧ deep.store.graph.scanned = ["a.js", "c.js"] := by
  intro shallow deep
  obtain ⟨plain, refuses⟩ := longLink_gapProject
  have probed : (gapProject (.link longName)).tree.isFile?
      ((gapProject (.link longName)).fullPath "b.js") = .error (.file .nameTooLong _) :=
    FileTree.probe_eq_error_iff.mpr ⟨_, refuses, rfl⟩
  have failure : ∀ bound, (build (gapProject (.link longName)) (BuildRequest.within {} bound)
      Store.empty).failure = some (.file .nameTooLong _) := fun bound =>
    (failure_gapProject plain bound).trans (Project.refusal?_of_error probed)
  exact ⟨failure (some 0), (failure none).trans (failure (some 0)).symm,
    scanned_gapProject plain (Project.references?_of_error probed)⟩

/-- With a file in the place of the link, the two builds differ at most in the order. -/
theorem limit_decides_order_only_of_gap :
    let one := build (gapProject (.file [] true)) (BuildRequest.within {} (some 0)) Store.empty
    let other := build (gapProject (.file [] true)) (BuildRequest.within {} none) Store.empty
    one.failure = none ∧ one.store.graph.SameButOrder other.store.graph := by
  intro one other
  have regular := (child_gapProject (.file [] true)).2.1.isRegular
  have succeeded : one.failure = none :=
    (@failure_gapProject (.file [] true) rfl (some 0)).trans (Project.refusal?_of_ok regular)
  obtain ⟨-, same, -⟩ :=
    limit_decides_order_only (gapProject (.file [] true)) {} rfl (some 0) none
  exact ⟨succeeded, same succeeded⟩

end Build

end ModuleAtlas
