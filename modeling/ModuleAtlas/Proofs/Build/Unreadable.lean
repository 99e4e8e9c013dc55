import ModuleAtlas.Proofs.Build.Limits
import ModuleAtlas.Proofs.Build.Trees

/-! # A file that cannot be read

A file that cannot be read or decoded is not scanned, and nothing else comes of it. A build
over its tree and one over the tree in which the file is empty make the same moves, but for
the frames of the empty file, which are closed as they are opened
(`ModuleAtlas.Build.overlooks_run`). So the two builds have the same edges, and the first has
not scanned the names that lead to the file.
-/

namespace ModuleAtlas

/-- A file of the project is what stands at a location, links followed. -/
def Project.LeadsTo (project : Project) (location : Location) (file : String) : Prop :=
  project.tree.locate true (project.fullPath file) = .ok location

instance (project : Project) (location : Location) (file : String) :
    Decidable (project.LeadsTo location file) :=
  inferInstanceAs (Decidable (project.tree.locate true (project.fullPath file) = .ok location))

/-- One tree is another one in which the file at a location is empty instead of unreadable. -/
structure FileTree.Empties (location : Location) (other tree : FileTree) : Prop where
  outline : other.SameOutline tree
  unreadable : ∀ path, tree.locate true path = .ok location →
    ∃ failure, Reference.ofPath tree path = .error failure
  empty : ∀ path, tree.locate true path = .ok location → Reference.ofPath other path = .ok []
  rest : ∀ path, tree.locate true path ≠ .ok location →
    Reference.ofPath other path = Reference.ofPath tree path

namespace FileTree

variable {tree : FileTree} {location : Location} {content : List UInt8} {readable : Bool}
  {path : String}

private theorem ne_nil_of_file (present : tree.entry? location = some (.file content readable)) :
    location ≠ [] := by
  rintro rfl
  cases present

/-- A file that is denied or cannot be decoded has no references to go by. -/
theorem exists_ofPath_error (present : tree.entry? location = some (.file content readable))
    (unreadable : readable = false ∨ ∃ fault, Text.Utf8.decode content = .error fault)
    (located : tree.locate true path = .ok location) :
    ∃ failure, Reference.ofPath tree path = .error failure := by
  have stands := stat_of_locate located present
  unfold Reference.ofPath readText readBytes
  rw [stands]
  cases readable with
  | false => exact ⟨_, rfl⟩
  | true =>
      obtain denied | ⟨fault, undecoded⟩ := unreadable
      · cases denied
      · dsimp only [bind, Except.bind]
        rw [undecoded]
        exact ⟨_, rfl⟩

private theorem ofPath_of_empty (present : tree.entry? location = some (.file [] true))
    (located : tree.locate true path = .ok location) : Reference.ofPath tree path = .ok [] := by
  have stands := stat_of_locate located present
  have extracted : Reference.extract (Text.withLineFeeds "") = [] := by decide +kernel
  unfold Reference.ofPath readText readBytes
  rw [stands]
  exact congrArg Except.ok extracted

private theorem empties_put (present : tree.entry? location = some (.file content readable))
    (unreadable : readable = false ∨ ∃ fault, Text.Utf8.decode content = .error fault) :
    Empties location (tree.put location (.file [] true)) tree := by
  have below := ne_nil_of_file present
  have same := sameOutline_put below present [] true
  refine ⟨same, fun path located => exists_ofPath_error present unreadable located, ?_, ?_⟩
  · intro path located
    refine ofPath_of_empty ?_ ((same.locate_eq true path).trans located)
    rw [entry?_put below present, if_pos rfl]
  · intro path elsewhere
    have stands : (tree.put location (.file [] true)).stat path = tree.stat path := by
      unfold stat
      rw [same.locate_eq]
      cases located : tree.locate true path with
      | error fault => rfl
      | ok found =>
          dsimp only [bind, Except.bind]
          rw [entry?_put below present, if_neg]
          exact fun here => elsewhere (here ▸ located)
    unfold Reference.ofPath readText readBytes
    rw [stands]

end FileTree

namespace Build

/-- Two stages with the same files left and the same edges, where the first has scanned what
the second has scanned and does not lead to the location. -/
structure Overlooks (project : Project) (location : Location) (first second : Progress) :
    Prop where
  fresh : second.fresh = first.fresh
  edges : second.graph.edges = first.graph.edges
  scanned : first.graph.scanned =
    second.graph.scanned.filter fun file => ¬ project.LeadsTo location file

namespace Overlooks

variable {project : Project} {location : Location} {first second firstNext : Progress}
  {other : FileTree} {limit : DepthLimit} {file reference : String} {depth : Nat}

private theorem hasEdge (overlooks : Overlooks project location first second)
    (source target : String) :
    second.graph.hasEdge source target = first.graph.hasEdge source target := by
  unfold Inventory.hasEdge
  rw [overlooks.edges]

/-- Stages with the same graphs as before. -/
theorem keep {secondNext : Progress} (overlooks : Overlooks project location first second)
    (graph : firstNext.graph = first.graph) (also : secondNext.graph = second.graph)
    (fresh : secondNext.fresh = firstNext.fresh) :
    Overlooks project location firstNext secondNext := by
  refine ⟨fresh, ?_, ?_⟩
  · rw [graph, also, overlooks.edges]
  · rw [graph, also, overlooks.scanned]

private theorem note (overlooks : Overlooks project location first second) (notice : Notice) :
    Overlooks project location (first.note notice) (second.note notice) :=
  overlooks.keep rfl rfl overlooks.fresh

/-- A file that leads to the location is scanned in the second stage only. -/
theorem addFile_of_leadsTo (overlooks : Overlooks project location first second)
    (leads : project.LeadsTo location file) :
    first.graph.scanned =
      (second.graph.addFile file).scanned.filter fun name => ¬ project.LeadsTo location name := by
  rw [Graph.scanned_addFile, overlooks.scanned]
  split
  · rfl
  · rw [List.filter_append, List.filter_cons_of_neg (by simpa using leads), List.filter_nil,
      List.append_nil]

private theorem addFile (overlooks : Overlooks project location first second)
    (elsewhere : ¬ project.LeadsTo location file) :
    (first.graph.addFile file).scanned =
      (second.graph.addFile file).scanned.filter fun name => ¬ project.LeadsTo location name := by
  have same : file ∈ first.graph.scanned ↔ file ∈ second.graph.scanned := by
    rw [overlooks.scanned, List.mem_filter]
    exact and_iff_left (decide_eq_true elsewhere)
  rw [Graph.scanned_addFile, Graph.scanned_addFile]
  by_cases known : file ∈ second.graph.scanned
  · rw [if_pos known, if_pos (same.mpr known), overlooks.scanned]
  · rw [if_neg known, if_neg (mt same.mp known), overlooks.scanned, List.filter_append,
      List.filter_cons_of_pos (by simpa using elsewhere), List.filter_nil]

private theorem edges_of_recorded {task : Task} {secondNext : Progress} {target led : Option String}
    (overlooks : Overlooks project location first second)
    (one : Recorded task file reference first firstNext target)
    (two : Recorded task file reference second secondNext led) :
    secondNext.graph.edges = firstNext.graph.edges := by
  rcases one.cases with ⟨nothing, kept, -⟩ | ⟨id, isExternal, found, added, -⟩
  · rcases two.cases with ⟨-, alsoKept, -⟩ | ⟨id, isExternal, found, -, -⟩
    · rw [kept, alsoKept, overlooks.edges]
    · cases nothing.symm.trans found
  · rcases two.cases with ⟨nothing, -, -⟩ | ⟨id, isExternal, alsoFound, alsoAdded, -⟩
    · cases nothing.symm.trans found
    · cases alsoFound.symm.trans found
      rw [added, alsoAdded, Graph.edges_addDependency, Graph.edges_addDependency,
        overlooks.hasEdge, overlooks.edges]

/-- References of a file have the same effect in both trees. -/
theorem addReference (overlooks : Overlooks project location first second)
    (empties : FileTree.Empties location other project.tree) {target : Option String}
    (added : Build.addReference ⟨project, limit⟩ file reference first = (firstNext, target)) :
    ∃ secondNext, Build.addReference ⟨project.onTree other, limit⟩ file reference second =
      (secondNext, target) ∧ Overlooks project location firstNext secondNext := by
  rw [empties.outline.sameKinds.addReference_eq limit]
  rcases also : Build.addReference ⟨project, limit⟩ file reference second with ⟨secondNext, led⟩
  have one := recorded_addReference added
  have two := recorded_addReference also
  have same : led = target := by
    rw [one.target_eq, two.target_eq]
    simp only [overlooks.hasEdge]
  refine ⟨secondNext, by rw [same], ?_, ?_, ?_⟩
  · rw [two.fresh, one.fresh, overlooks.fresh]
  · exact overlooks.edges_of_recorded one two
  · rw [one.scanned, two.scanned, overlooks.scanned]

private theorem enter_of_error (overlooks : Overlooks project location first second)
    (empties : FileTree.Empties location other project.tree) {failure : Failure}
    (failed : enter ⟨project, limit⟩ depth file first = (firstNext, .error failure)) :
    ∃ secondNext, enter ⟨project.onTree other, limit⟩ depth file second =
      (secondNext, .error failure) ∧ Overlooks project location firstNext secondNext := by
  unfold enter
  dsimp only [Project.tree_onTree, Project.fullPath_onTree]
  rw [empties.outline.isFile?_eq]
  rcases enter_eq_error failed with ⟨incomparable, rfl⟩ | ⟨within, unprobed, rfl⟩
  · rw [incomparable]
    exact ⟨second, rfl, overlooks⟩
  · rw [within, unprobed]
    exact ⟨_, rfl, overlooks.keep rfl rfl (congrArg (List.filter _) overlooks.fresh)⟩

/-- Entering a file opens the same frame in both trees, or one more in the second, which has no
references. -/
theorem enter_of_ok (overlooks : Overlooks project location first second)
    (empties : FileTree.Empties location other project.tree) {opened : Option Frame}
    (entered : enter ⟨project, limit⟩ depth file first = (firstNext, .ok opened)) :
    ∃ secondNext also, enter ⟨project.onTree other, limit⟩ depth file second =
      (secondNext, .ok also) ∧ Overlooks project location firstNext secondNext ∧
        (also = opened ∨ opened = none ∧ also = some ⟨file, depth, []⟩) := by
  have left : (second.enter file).fresh = first.fresh.filter (· ≠ file) :=
    congrArg (List.filter _) overlooks.fresh
  unfold enter
  dsimp only [Project.tree_onTree, Project.fullPath_onTree]
  rw [empties.outline.isFile?_eq]
  cases entered_of_enter entered with
  | beyond limit graph fresh =>
      dsimp only at limit
      rw [limit]
      exact ⟨_, _, rfl, overlooks.keep graph rfl (overlooks.fresh.trans fresh.symm), Or.inl rfl⟩
  | irregular limit regular graph fresh =>
      dsimp only at limit regular
      rw [limit, regular]
      exact ⟨_, _, rfl, overlooks.keep graph rfl (left.trans fresh.symm), Or.inl rfl⟩
  | unreadable limit regular read graph fresh =>
      dsimp only at limit regular read
      rw [limit, regular]
      by_cases leads : project.LeadsTo location file
      · rw [empties.empty _ leads]
        refine ⟨_, _, rfl, ⟨left.trans fresh.symm, ?_, ?_⟩, Or.inr ⟨rfl, rfl⟩⟩
        · rw [graph, ← overlooks.edges]
          exact Graph.edges_addFile second.graph file
        · rw [graph]
          exact overlooks.addFile_of_leadsTo leads
      · rw [empties.rest _ leads, read]
        exact ⟨_, _, rfl, overlooks.keep graph rfl (left.trans fresh.symm), Or.inl rfl⟩
  | opened limit regular read graph fresh =>
      dsimp only at limit regular read
      have elsewhere : ¬ project.LeadsTo location file := by
        intro leads
        obtain ⟨failure, unread⟩ := empties.unreadable _ leads
        cases read.symm.trans unread
      rw [limit, regular, empties.rest _ elsewhere, read]
      refine ⟨_, _, rfl, ⟨left.trans fresh.symm, ?_, ?_⟩, Or.inl rfl⟩
      · rw [graph, Graph.edges_addFile, ← overlooks.edges]
        exact Graph.edges_addFile second.graph file
      · rw [graph]
        exact overlooks.addFile elsewhere

end Overlooks

/-- Two traversals that end with the same failure or both without one, at such stages. -/
def EndAlike (project : Project) (location : Location) (first second : Progress × Option Failure) :
    Prop :=
  Overlooks project location first.1 second.1 ∧ second.2 = first.2

section Overlooking

variable {project : Project} {location : Location} {first second : Progress} {other : FileTree}

/-- A frame without references makes no difference. -/
theorem run_extra (task : Task) {file : String} {depth : Nat} {opened also : Option Frame}
    (extra : also = opened ∨ opened = none ∧ also = some ⟨file, depth, []⟩) (progress : Progress)
    (frames : List Frame) :
    run task progress (also.toList ++ frames) = run task progress (opened.toList ++ frames) := by
  rcases extra with rfl | ⟨rfl, rfl⟩
  · rfl
  · exact run_close task progress file depth frames

/-- A traversal with an unreadable file and the one that finds it empty end alike. -/
theorem overlooks_run (empties : FileTree.Empties location other project.tree)
    (limit : DepthLimit) (overlooks : Overlooks project location first second)
    (frames : List Frame) :
    EndAlike project location (run ⟨project, limit⟩ first frames)
      (run ⟨project.onTree other, limit⟩ second frames) := by
  -- The induction follows the first traversal; the other one makes its moves and closes the
  -- frames of the empty file in between.
  induction first, frames using run_induction ⟨project, limit⟩ generalizing second with
  | nil progress =>
      rw [run_nil, run_nil]
      exact ⟨overlooks, rfl⟩
  | close progress file depth frames ih =>
      rw [run_close, run_close]
      exact ih overlooks
  | pass depth references frames added stale ih =>
      obtain ⟨secondNoted, also, noted⟩ := overlooks.addReference empties added
      rw [run_pass added stale, run_pass also (noted.fresh ▸ stale)]
      exact ih noted
  | fail depth references frames added fresh failed =>
      obtain ⟨secondNoted, also, noted⟩ := overlooks.addReference empties added
      obtain ⟨secondNext, alsoFailed, next⟩ := noted.enter_of_error empties failed
      rw [run_fail added fresh failed, run_fail also (noted.fresh ▸ fresh) alsoFailed]
      exact ⟨next, rfl⟩
  | descend depth references frames added fresh entered ih =>
      obtain ⟨secondNoted, also, noted⟩ := overlooks.addReference empties added
      obtain ⟨secondNext, opened, alsoEntered, next, extra⟩ := noted.enter_of_ok empties entered
      rw [run_descend added fresh entered, run_descend also (noted.fresh ▸ fresh) alsoEntered,
        run_extra _ extra]
      exact ih next

private theorem overlooks_traverse (empties : FileTree.Empties location other project.tree)
    (limit : DepthLimit) (overlooks : Overlooks project location first second) (file : String) :
    EndAlike project location (traverse ⟨project, limit⟩ file first)
      (traverse ⟨project.onTree other, limit⟩ file second) := by
  rcases entered : enter ⟨project, limit⟩ 0 file first with ⟨firstNext, failure | opened⟩
  · obtain ⟨secondNext, also, next⟩ := overlooks.enter_of_error empties entered
    rw [traverse_of_error entered, traverse_of_error also]
    exact ⟨next, rfl⟩
  · obtain ⟨secondNext, frame, also, next, extra⟩ := overlooks.enter_of_ok empties entered
    have closed := run_extra ⟨project.onTree other, limit⟩ extra secondNext []
    rw [List.append_nil, List.append_nil] at closed
    rw [traverse_of_enter entered, traverse_of_enter also, closed]
    exact overlooks_run empties limit next opened.toList

private theorem overlooks_traverseAll (empties : FileTree.Empties location other project.tree)
    (limit : DepthLimit) (overlooks : Overlooks project location first second)
    (files : List String) :
    EndAlike project location (traverseAll ⟨project, limit⟩ first files)
      (traverseAll ⟨project.onTree other, limit⟩ second files) := by
  induction files generalizing first second with
  | nil => exact ⟨overlooks, rfl⟩
  | cons file files ih =>
      rw [traverseAll, traverseAll, overlooks.fresh]
      by_cases fresh : file ∈ first.fresh
      · rw [if_pos fresh, if_pos fresh]
        have ends := overlooks_traverse empties limit overlooks file
        rcases one : traverse ⟨project, limit⟩ file first with ⟨firstNext, failure⟩
        rcases two : traverse ⟨project.onTree other, limit⟩ file second with ⟨secondNext, also⟩
        rw [one, two] at ends
        obtain ⟨next, rfl : also = failure⟩ := ends
        cases also with
        | some failure => exact ⟨next, rfl⟩
        | none => exact ih next
      · rw [if_neg fresh, if_neg fresh]
        exact ih overlooks

private theorem overlooks_fromStart (empties : FileTree.Empties location other project.tree)
    (limit : DepthLimit) (overlooks : Overlooks project location first second) (start : String) :
    EndAlike project location (fromStart ⟨project, limit⟩ start first)
      (fromStart ⟨project.onTree other, limit⟩ start second) := by
  unfold fromStart
  dsimp only [Project.tree_onTree, Project.root_onTree]
  rw [empties.outline.isFile?_eq]
  cases project.tree.isFile? ((project.root.join start).normalize).toString with
  | error failure => exact ⟨overlooks, rfl⟩
  | ok regular =>
      cases regular with
      | false => exact ⟨overlooks.note _, rfl⟩
      | true =>
          cases ((project.root.join start).normalize).relativeTo? project.root with
          | none => exact ⟨overlooks.note _, rfl⟩
          | some parts => exact overlooks_traverse empties limit (overlooks.note _) _

private theorem overlooks_traversal (empties : FileTree.Empties location other project.tree)
    (limit : DepthLimit) (overlooks : Overlooks project location first second)
    (start : Option String) (files : List String) :
    EndAlike project location (traversal ⟨project, limit⟩ start files first)
      (traversal ⟨project.onTree other, limit⟩ start files second) := by
  by_cases unnamed : start.getD "" = ""
  · rw [traversal_of_unnamed unnamed, traversal_of_unnamed unnamed]
    exact overlooks_traverseAll empties limit (overlooks.note _) files
  · rw [traversal_of_named unnamed, traversal_of_named unnamed]
    exact overlooks_fromStart empties limit overlooks _

/-- Builds over the two trees end alike and have the same edges, and the first has scanned what
does not lead to the location. -/
theorem overlooks_build (empties : FileTree.Empties location other project.tree)
    (request : BuildRequest) :
    let one := build project request Store.empty
    let two := build (project.onTree other) request Store.empty
    two.failure = one.failure ∧ two.store.graph.edges = one.store.graph.edges ∧
      one.store.graph.scanned =
        two.store.graph.scanned.filter fun file => ¬ project.LeadsTo location file := by
  have discovery : (project.onTree other).tree.discover = project.tree.discover :=
    empties.outline.discover_eq
  dsimp only
  rcases found : project.tree.discover request.filter project.root with ⟨notices, outcome⟩
  have alsoFound := found
  rw [← discovery] at alsoFound
  cases outcome with
  | error failure =>
      obtain ⟨empty, -, failed⟩ := build_eq_of_error found
      obtain ⟨alsoEmpty, -, alsoFailed⟩ := build_eq_of_error alsoFound
      rw [empty, alsoEmpty, failed, alsoFailed]
      exact ⟨rfl, rfl, rfl⟩
  | ok files =>
      obtain ⟨graph, -, failure⟩ := build_eq_traversal found
      obtain ⟨alsoGraph, -, alsoFailure⟩ := build_eq_traversal alsoFound
      have start : Overlooks project location (opening project request notices files)
          (opening (project.onTree other) request notices files) := by
        refine ⟨?_, ?_, ?_⟩ <;> simp only [opening, Progress.fresh_noteAll, Progress.graph_noteAll]
        rfl
      obtain ⟨last, same⟩ :=
        overlooks_traversal empties request.limit start request.startFile files
      rw [graph, alsoGraph, failure, alsoFailure]
      exact ⟨same, last.edges, last.scanned⟩

end Overlooking

/-- A file that is denied or is not well-formed text is isolated. A build over its tree and one
over the tree in which the file is readable and empty end alike, with the same failure or
without one, and with the same dependencies of every file in the same order. The first has
scanned what the second has scanned, in the same order, without the names that lead to the
file: without the one name of the file if no other scanned name is a link to it. -/
theorem unreadable_file_is_isolated (project : Project) (request : BuildRequest)
    (location : Location) (content : List UInt8) (readable : Bool)
    (present : project.tree.entry? location = some (.file content readable))
    (unreadable : readable = false ∨ ∃ fault, Text.Utf8.decode content = .error fault) :
    let emptied := project.onTree (project.tree.put location (.file [] true))
    let one := build project request Store.empty
    let two := build emptied request Store.empty
    two.failure = one.failure ∧
      (∀ file, one.store.graph.dependencies file = two.store.graph.dependencies file) ∧
      one.store.graph.scanned =
        two.store.graph.scanned.filter (fun file => ¬ project.LeadsTo location file) ∧
      ∀ name, project.LeadsTo location name →
        (∀ file ∈ two.store.graph.scanned, project.LeadsTo location file → file = name) →
          one.store.graph.scanned = two.store.graph.scanned.filter (· ≠ name) := by
  intro emptied one two
  obtain ⟨ended, edges, scanned⟩ :=
    overlooks_build (FileTree.empties_put present unreadable) request
  refine ⟨ended, ?_, scanned, ?_⟩
  · intro file
    unfold Graph.dependencies Graph.outEdges
    rw [edges]
  · intro name leads only
    rw [scanned]
    apply List.filter_congr
    intro file member
    have same : project.LeadsTo location file ↔ file = name :=
      ⟨only file member, fun same => same ▸ leads⟩
    simp only [same, ne_eq]

/-- A file that imports another one, to which a link leads too. -/
def sharedProject (content : List UInt8) : Project where
  tree := .ofEntries
    [(["p", "f.js"], .file content true), (["p"], .directory true true),
     (["p", "a.js"], .file "import './f.js'".toUTF8.toList true),
     (["p", "g.js"], .link "f.js")] (by simp) (by simp; decide)
  root := projectRoot
  policy := .strict

section Shared

variable (content : List UInt8)

private theorem child_sharedProject :
    (sharedProject content).Child "a.js" (.file "import './f.js'".toUTF8.toList true) ∧
      (sharedProject content).Child "f.js" (.file content true) ∧
      (sharedProject content).Child "g.js" (.link "f.js") := by
  have opened : (sharedProject content).tree.IsOpen ["p"] := of_decide_eq_true rfl
  have short : ∀ name ∈ ["a.js", "f.js", "g.js"],
      (projectRoot.join name).toString.utf8ByteSize < pathLimit := by decide +kernel
  exact ⟨⟨rfl, opened, rfl, short _ (by simp)⟩, ⟨rfl, opened, rfl, short _ (by simp)⟩,
    ⟨rfl, opened, rfl, short _ (by simp)⟩⟩

/-- The link leads to the file. -/
theorem walk_sharedProject :
    (sharedProject content).tree.walk true linkLimit ["p"] ["g.js"] = .ok ["p", "f.js"] := by
  have searchable : (sharedProject content).tree.entry? ["p"] = some (.directory true true) := rfl
  have linked : (sharedProject content).tree.entry? (["p"] ++ ["g.js"]) =
      some (.link "f.js") := rfl
  have present : (sharedProject content).tree.entry? (["p"] ++ ["f.js"]) =
      some (.file content true) := rfl
  rw [linkLimit, FileTree.walk_link searchable linked (by decide) (by decide),
    FileTree.walk_cons_of_entry searchable present (Entry.file_ne_link _ _), FileTree.walk]
  rfl

private theorem leadsTo_sharedProject : (sharedProject content).LeadsTo ["p", "f.js"] "g.js" := by
  obtain ⟨-, -, link⟩ := child_sharedProject content
  exact link.locate.trans (walk_sharedProject content)

private theorem discover_sharedProject :
    ((sharedProject content).tree.discover {} (sharedProject content).root).2 =
      .ok ["a.js", "f.js", "g.js"] := by
  have short : projectRoot.toString.utf8ByteSize < pathLimit := by decide +kernel
  have children : (sharedProject content).tree.children ["p"] =
      [("f.js", .file content true), ("a.js", .file "import './f.js'".toUTF8.toList true),
        ("g.js", .link "f.js")] := rfl
  have flat : ∀ member ∈ (sharedProject content).tree.children ["p"],
      (sharedProject content).tree.listsAsDirectory ["p"] member = false := by
    rw [children]
    simp only [List.forall_mem_cons, List.not_mem_nil, false_imp_iff, implies_true, and_true]
    refine ⟨rfl, rfl, ?_⟩
    unfold FileTree.listsAsDirectory
    dsimp only
    rw [walk_sharedProject]
    rfl
  have sorted : (Text.sortTexts ["f.js", "a.js", "g.js"]).filter ({} : SourceFilter).supports =
      ["a.js", "f.js", "g.js"] := by cbv
  rw [@FileTree.discover_of_flat (sharedProject content).tree {} (sharedProject content).root [] "p"
    rfl rfl short (of_decide_eq_true rfl) rfl flat]
  exact congrArg Except.ok sorted

private theorem isRegular_sharedProject : (sharedProject content).IsRegular "g.js" := by
  unfold Project.IsRegular FileTree.isFile? FileTree.probe
  rw [FileTree.stat_of_locate (leadsTo_sharedProject content) rfl]
  rfl

private theorem failure_sharedProject :
    (build (sharedProject content) {} Store.empty).failure = none := by
  obtain ⟨first, second, -⟩ := child_sharedProject content
  rw [@failure_of_unnamed (sharedProject content) {} rfl rfl, discover_sharedProject]
  dsimp only
  rw [List.findSome?_cons, Project.refusal?_of_ok first.isRegular, List.findSome?_cons,
    Project.refusal?_of_ok second.isRegular, List.findSome?_cons,
    Project.refusal?_of_ok (isRegular_sharedProject content), List.findSome?_nil]

private theorem mem_scanned_sharedProject {file : String} (listed : file ∈ ["a.js", "f.js", "g.js"])
    (regular : (sharedProject content).IsRegular file)
    (readable : (sharedProject content).IsReadable file) :
    file ∈ (build (sharedProject content) {} Store.empty).store.graph.scanned := by
  have known : discovered (sharedProject content) {} = ["a.js", "f.js", "g.js"] :=
    discovered_of_ok (discover_sharedProject content)
  exact (@mem_scanned_iff_of_unnamed (sharedProject content) {} file rfl rfl
    (failure_sharedProject content)).mpr ⟨known.symm ▸ listed, regular, readable⟩

private theorem dependencies_sharedProject :
    (build (sharedProject content) {} Store.empty).store.graph.dependencies "a.js" =
      [("f.js", false)] := by
  obtain ⟨first, second, -⟩ := child_sharedProject content
  have extracted : Reference.extract (Text.withLineFeeds "import './f.js'") = ["./f.js"] := by
    decide +kernel
  have internal : (sharedProject content).dependency? "a.js" "./f.js" = some ("f.js", false) :=
    first.dependency?_sibling second (by decide +kernel)
  have read := first.readText (Text.Utf8.decode_toUTF8 _)
  obtain ⟨text, reread, whole⟩ := exists_dependencies_build
    (mem_scanned_sharedProject content (by simp) first.isRegular ⟨_, read⟩)
  cases read.symm.trans reread
  rw [whole, extracted, Project.entries, List.filterMap_cons_some internal, List.filterMap_nil]
  rfl

end Shared

/-- The tree in which the shared file is empty. -/
theorem onTree_sharedProject :
    (sharedProject [255]).onTree ((sharedProject [255]).tree.put ["p", "f.js"] (.file [] true)) =
      sharedProject [] := rfl

private theorem undecodable_byte : ∃ fault, Text.Utf8.decode [255] = .error fault := ⟨_, rfl⟩

/-- A file that imports a file which cannot be decoded depends on it as it depends on an empty
one. -/
theorem unreadable_file_is_isolated_of_import :
    let project := sharedProject [255]
    let emptied := project.onTree (project.tree.put ["p", "f.js"] (.file [] true))
    let one := build project {} Store.empty
    let two := build emptied {} Store.empty
    two.failure = one.failure ∧ one.failure = none ∧
      one.store.graph.dependencies "a.js" = [("f.js", false)] ∧
      two.store.graph.dependencies "a.js" = [("f.js", false)] ∧
      one.store.graph.scanned =
        two.store.graph.scanned.filter fun file => ¬ project.LeadsTo ["p", "f.js"] file := by
  intro project emptied one two
  obtain ⟨ended, same, scanned, -⟩ := unreadable_file_is_isolated project {} ["p", "f.js"] [255]
    true rfl (Or.inr undecodable_byte)
  have recorded := dependencies_sharedProject [255]
  exact ⟨ended, failure_sharedProject [255], recorded, (same "a.js").symm.trans recorded, scanned⟩

/-- A link to a file that cannot be decoded is left out with it, although the link itself is a
file of the project with a name of its own. -/
theorem link_is_left_out :
    let project := sharedProject [255]
    let emptied := project.onTree (project.tree.put ["p", "f.js"] (.file [] true))
    let one := build project {} Store.empty
    let two := build emptied {} Store.empty
    one.failure = none ∧ two.failure = none ∧ "g.js" ∈ two.store.graph.scanned ∧
      one.store.graph.scanned ≠ two.store.graph.scanned.filter (· ≠ "f.js") := by
  intro project emptied one two
  have empties : FileTree.Empties ["p", "f.js"]
      (project.tree.put ["p", "f.js"] (.file [] true)) project.tree :=
    @FileTree.empties_put project.tree ["p", "f.js"] [255] true rfl (Or.inr undecodable_byte)
  have twin : two = build (sharedProject []) {} Store.empty :=
    congrArg (fun project => build project {} Store.empty) onTree_sharedProject
  have read : Reference.ofPath (sharedProject []).tree ((sharedProject []).fullPath "g.js") =
      .ok [] := FileTree.ofPath_of_empty rfl (leadsTo_sharedProject [])
  obtain ⟨text, decoded, -⟩ := Project.exists_text_of_ofPath read
  have linked : "g.js" ∈ two.store.graph.scanned := by
    rw [twin]
    exact mem_scanned_sharedProject [] (by simp) (isRegular_sharedProject []) ⟨text, decoded⟩
  have left : "g.js" ∉ one.store.graph.scanned := by
    intro kept
    rw [(overlooks_build empties {}).2.2] at kept
    exact of_decide_eq_true (List.mem_filter.mp kept).2 (leadsTo_sharedProject [255])
  refine ⟨failure_sharedProject [255], ?_, linked, ?_⟩
  · rw [twin]
    exact failure_sharedProject []
  · intro same
    apply left
    rw [same]
    exact List.mem_filter.mpr ⟨linked, rfl⟩

end Build

end ModuleAtlas
