import ModuleAtlas.Proofs.Graph.BackEdges

/-! # The forest of a depth-first pass

A depth-first pass enters a node once: it is started there, or it steps down from the last
node of its path. The steps down are a forest (`ModuleAtlas.Graph.forest`), and at every stage
the path is the way down from one of its roots to the node that is looked at. So an edge leads
back to the path exactly if it leads to a node above its source or to the source itself, and
the cycle that is reported for it is that edge with the way down between its ends
(`ModuleAtlas.Graph.mem_reported_iff`). A node that gets back to itself only over nodes that
were finished before it was entered is on no reported cycle.
-/

namespace ModuleAtlas.Graph

/-- The steps down of a depth-first pass that goes on with a stack of branches. -/
def descents (graph : Graph) (unseen : List String) : List Branch → List (String × String)
  | [] => []
  | ⟨_, []⟩ :: branches => graph.descents unseen branches
  | ⟨node, child :: pending⟩ :: branches =>
      let rest := ⟨node, pending⟩ :: branches
      if child ∈ unseen then
        (node, child) ::
          graph.descents (unseen.erase child) (⟨child, graph.internalSuccessors child⟩ :: rest)
      else graph.descents unseen rest
termination_by branches => (unseen.length, workLeft branches)
decreasing_by
  · exact Prod.Lex.right _ (by simp [workLeft])
  · next inside =>
      apply Prod.Lex.left
      rw [List.length_erase_of_mem inside]
      exact Nat.sub_lt (List.length_pos_of_mem inside) Nat.one_pos
  · exact Prod.Lex.right _ (by simp [workLeft])

/-- The steps down from roots that are tried in turn. -/
def descentsFrom (graph : Graph) (unseen : List String) : List String → List (String × String)
  | [] => []
  | root :: roots =>
      if root ∈ unseen then
        let branches := [⟨root, graph.internalSuccessors root⟩]
        graph.descents (unseen.erase root) branches ++
          graph.descentsFrom (graph.sweep (unseen.erase root) branches).1 roots
      else graph.descentsFrom unseen roots

/-- The steps down of the depth-first pass from the scanned files. -/
def forest (graph : Graph) : List (String × String) :=
  graph.descentsFrom graph.nodes graph.scanned

/-- The depth-first pass steps down from one node to another. -/
def StepsDown (graph : Graph) (source target : String) : Prop := (source, target) ∈ graph.forest

section Ways

variable {down : String → String → Prop} {path : List String} {source target node : String}

/-- A way down from a node that nothing leads down to. -/
structure IsWayDown (down : String → String → Prop) (path : List String) : Prop where
  linked : path.IsChain down
  top : ∀ root ∈ path.head?, ∀ source, ¬ down source root

/-- The way down to a node passes its parent. -/
theorem IsWayDown.link (way : IsWayDown down path) (unique : Relator.LeftUnique down)
    (member : target ∈ path) (step : down source target) : [source, target] <:+: path := by
  obtain ⟨front, back, rfl⟩ := List.append_of_mem member
  rcases List.eq_nil_or_concat' front with rfl | ⟨front, parent, rfl⟩
  · exact absurd step (way.top target rfl source)
  · obtain ⟨-, -, joined⟩ := List.isChain_append.mp way.linked
    have above : down parent target := joined parent List.getLast?_concat target rfl
    obtain rfl := unique step above
    exact ⟨front, back, by simp only [List.append_assoc, List.cons_append, List.nil_append]⟩

private theorem IsWayDown.mem_of_above (way : IsWayDown down path)
    (unique : Relator.LeftUnique down) (member : target ∈ path)
    (above : Relation.ReflTransGen down source target) :
    source ∈ path := by
  induction above using Relation.ReflTransGen.head_induction_on with
  | refl => exact member
  | head step _ ih => exact (way.link unique ih step).subset List.mem_cons_self

/-- The end of a path from a node on goes on with the path. -/
theorem mem_suffixFrom_of_link (distinct : path.Nodup) (link : [source, target] <:+: path)
    (member : source ∈ suffixFrom node path) : target ∈ suffixFrom node path := by
  induction path with
  | nil => cases member
  | cons first rest ih =>
      rw [suffixFrom] at member ⊢
      split at member
      · next same =>
          rw [if_pos same]
          exact link.subset (by simp only [List.mem_cons, List.not_mem_nil, or_false, or_true])
      · next different =>
          rw [if_neg different]
          obtain ⟨outside, distinct⟩ := List.nodup_cons.mp distinct
          rcases List.infix_cons_iff.mp link with ⟨back, whole⟩ | inner
          · obtain ⟨rfl, -⟩ := List.cons.inj whole
            exact absurd ((suffixFrom_suffix node rest).subset member) outside
          · exact ih distinct inner member

/-- A node between two nodes of a way down is on the part of the way between them. -/
theorem IsWayDown.mem_suffixFrom (way : IsWayDown down path) (unique : Relator.LeftUnique down)
    (distinct : path.Nodup) (member : source ∈ path)
    (above : Relation.ReflTransGen down target node)
    (below : Relation.ReflTransGen down node source) : node ∈ suffixFrom target path := by
  induction above with
  | refl =>
      have onPath := way.mem_of_above unique member below
      exact List.mem_of_mem_head? (Option.mem_def.mpr (head?_suffixFrom onPath))
  | tail _ step ih =>
      have link := way.link unique (way.mem_of_above unique member below) step
      exact mem_suffixFrom_of_link distinct link (ih (below.head step))

/-- A chain of steps leads from its first node to each of its nodes and from there to its last
node. -/
theorem reflTransGen_of_mem_chain {first last : String} (linked : path.IsChain down)
    (starts : path.head? = some first) (ends : path.getLast? = some last) (member : node ∈ path) :
    Relation.ReflTransGen down first node ∧ Relation.ReflTransGen down node last := by
  induction linked generalizing first node with
  | nil => cases member
  | singleton only =>
      cases List.mem_singleton.mp member
      cases starts
      cases ends
      exact ⟨.refl, .refl⟩
  | @cons_cons head second rest step _ ih =>
      cases starts
      rw [List.getLast?_cons_cons] at ends
      rcases List.mem_cons.mp member with rfl | later
      · obtain ⟨-, onward⟩ := ih rfl ends List.mem_cons_self
        exact ⟨.refl, onward.head step⟩
      · obtain ⟨toNode, onward⟩ := ih rfl ends later
        exact ⟨toNode.head step, onward⟩

end Ways

/-- Steps down along internal edges to different nodes that were unseen at first and are not
left in the end. -/
structure Grows (graph : Graph) (unseen left : List String) (steps : List (String × String)) :
    Prop where
  internal : ∀ step ∈ steps, graph.HasInternalEdge step.1 step.2
  fresh : ∀ step ∈ steps, step.2 ∈ unseen
  seen : ∀ step ∈ steps, step.2 ∉ left
  distinct : (steps.map Prod.snd).Nodup

section Exploration

variable {graph : Graph} {unseen pending left : List String} {branches : List Branch}
  {node child : String} {down : String → String → Prop}

private theorem descents_nil (graph : Graph) (unseen : List String) :
    graph.descents unseen [] = [] := by
  rw [descents.eq_def]

private theorem descents_pop (graph : Graph) (unseen : List String) (node : String)
    (branches : List Branch) :
    graph.descents unseen (⟨node, []⟩ :: branches) = graph.descents unseen branches := by
  rw [descents.eq_def]

private theorem descents_push (inside : child ∈ unseen) :
    graph.descents unseen (⟨node, child :: pending⟩ :: branches) =
      (node, child) :: graph.descents (unseen.erase child)
        (⟨child, graph.internalSuccessors child⟩ :: ⟨node, pending⟩ :: branches) := by
  rw [descents.eq_def]
  exact if_pos inside

private theorem descents_look (outside : child ∉ unseen) :
    graph.descents unseen (⟨node, child :: pending⟩ :: branches) =
      graph.descents unseen (⟨node, pending⟩ :: branches) := by
  rw [descents.eq_def]
  exact if_neg outside

private theorem Grows.append {middle : List String} {first second : List (String × String)}
    (former : graph.Grows unseen middle first) (latter : graph.Grows middle left second)
    (early : middle ⊆ unseen) (late : left ⊆ middle) :
    graph.Grows unseen left (first ++ second) := by
  refine ⟨?_, ?_, ?_, ?_⟩
  · exact List.forall_mem_append.mpr ⟨former.internal, latter.internal⟩
  · exact List.forall_mem_append.mpr
      ⟨former.fresh, fun step member => early (latter.fresh step member)⟩
  · exact List.forall_mem_append.mpr
      ⟨fun step member last => former.seen step member (late last), latter.seen⟩
  · rw [List.map_append]
    apply former.distinct.append latter.distinct
    intro target one other
    obtain ⟨step, member, rfl⟩ := List.mem_map.mp one
    obtain ⟨again, later, same⟩ := List.mem_map.mp other
    exact former.seen step member (same ▸ latter.fresh again later)

private theorem grows_descents (trail : graph.Trail unseen branches) :
    graph.Grows unseen (graph.sweep unseen branches).1 (graph.descents unseen branches) := by
  induction unseen, branches using sweep.induct graph with
  | case1 unseen =>
      rw [descents_nil]
      exact ⟨List.forall_mem_nil _, List.forall_mem_nil _, List.forall_mem_nil _, List.nodup_nil⟩
  | case2 unseen node branches ih =>
      rw [sweep_pop, descents_pop]
      exact ih trail.pop
  | case3 unseen node child pending branches rest inside ih =>
      rw [sweep_push inside, descents_push inside]
      have pushed := trail.push inside
      have later := ih pushed
      have entered : child ∉ unseen.erase child := fun again =>
        (trail.fresh.mem_erase_iff.mp again).1 rfl
      refine ⟨?_, ?_, ?_, ?_⟩
      · exact List.forall_mem_cons.mpr ⟨trail.edge, later.internal⟩
      · exact List.forall_mem_cons.mpr
          ⟨inside, fun step member => List.mem_of_mem_erase (later.fresh step member)⟩
      · exact List.forall_mem_cons.mpr
          ⟨fun last => entered ((reports_sweep pushed).sublist.subset last), later.seen⟩
      · rw [List.map_cons, List.nodup_cons]
        refine ⟨fun again => ?_, later.distinct⟩
        obtain ⟨step, member, same⟩ := List.mem_map.mp again
        have isChild : step.2 = child := same
        exact entered (isChild ▸ later.fresh step member)
  | case4 unseen node child pending branches rest outside _ _ _ ih =>
      have later := ih trail.advance
      rw [descents_look outside]
      by_cases onPath : child ∈ pathOf (⟨node, pending⟩ :: branches)
      · rw [sweep_back outside onPath]
        exact later
      · rw [sweep_skip outside onPath]
        exact later

private theorem pathOf_cons (branch : Branch) (branches : List Branch) :
    pathOf (branch :: branches) = pathOf branches ++ [branch.node] := by
  rw [pathOf, List.map_cons, List.reverse_cons]
  rfl

private theorem IsWayDown.pop {branch : Branch}
    (way : IsWayDown down (pathOf (branch :: branches))) :
    IsWayDown down (pathOf branches) := by
  rw [pathOf_cons] at way
  refine ⟨way.linked.left_of_append, fun root isTop => way.top root ?_⟩
  rw [List.head?_append, Option.mem_def.mp isTop]
  rfl

private theorem IsWayDown.push {successors : List String}
    (way : IsWayDown down (pathOf (⟨node, pending⟩ :: branches))) (step : down node child) :
    IsWayDown down (pathOf (⟨child, successors⟩ :: ⟨node, pending⟩ :: branches)) := by
  have last := getLast?_pathOf ⟨node, pending⟩ branches
  rw [pathOf_cons]
  refine ⟨way.linked.append (List.isChain_singleton child) ?_, fun root isTop => ?_⟩
  · intro inner isLast outer isFirst
    cases last.symm.trans isLast
    cases isFirst
    exact step
  · have nonempty : pathOf (⟨node, pending⟩ :: branches) ≠ [] := by
      intro none
      rw [none] at last
      cases last
    rw [List.head?_append_of_ne_nil _ nonempty] at isTop
    exact way.top root isTop

/-- All steps of a reported cycle but the one that closes it are steps down. -/
theorem isChain_sweep (steps : ∀ step ∈ graph.descents unseen branches, down step.1 step.2)
    (way : IsWayDown down (pathOf branches)) :
    ∀ cycle ∈ (graph.sweep unseen branches).2, cycle.dropLast.IsChain down := by
  induction unseen, branches using sweep.induct graph with
  | case1 unseen =>
      rw [sweep_nil]
      exact fun cycle member => absurd member List.not_mem_nil
  | case2 unseen node branches ih =>
      rw [sweep_pop]
      rw [descents_pop] at steps
      exact ih steps way.pop
  | case3 unseen node child pending branches rest inside ih =>
      rw [sweep_push inside]
      rw [descents_push inside] at steps
      obtain ⟨entering, later⟩ := List.forall_mem_cons.mp steps
      -- The path of a stack does not depend on what is pending.
      have path : IsWayDown down (pathOf (⟨node, pending⟩ :: branches)) := way
      exact ih later (path.push entering)
  | case4 unseen node child pending branches rest outside _ _ _ ih =>
      rw [descents_look outside] at steps
      have path : IsWayDown down (pathOf (⟨node, pending⟩ :: branches)) := way
      by_cases onPath : child ∈ pathOf (⟨node, pending⟩ :: branches)
      · rw [sweep_back outside onPath]
        refine List.forall_mem_cons.mpr ⟨?_, ih steps path⟩
        rw [List.dropLast_concat]
        exact path.linked.suffix (suffixFrom_suffix child _)
      · rw [sweep_skip outside onPath]
        exact ih steps path

private theorem mem_pathOf_self (branch : Branch) (branches : List Branch) :
    branch.node ∈ pathOf (branch :: branches) := by
  rw [pathOf_cons]
  exact List.mem_append_right _ (List.mem_singleton_self _)

/-- An edge that is ahead does not leave a node that has nothing pending. -/
theorem Ahead.pop {source target : String}
    (ahead : Ahead unseen (⟨node, []⟩ :: branches) source target) :
    Ahead unseen branches source target := by
  rcases ahead with waiting | ⟨branch, member, leaves, listed⟩
  · exact Or.inl waiting
  · rcases List.mem_cons.mp member with rfl | outer
    · cases listed
    · exact Or.inr ⟨branch, outer, leaves, listed⟩

/-- An edge that is ahead is the next one to be looked at, or is still ahead then. -/
theorem Ahead.look {source target : String}
    (ahead : Ahead unseen (⟨node, child :: pending⟩ :: branches) source target) :
    (source = node ∧ target = child) ∨
      Ahead unseen (⟨node, pending⟩ :: branches) source target := by
  rcases ahead with waiting | ⟨branch, member, leaves, listed⟩
  · exact Or.inr (Or.inl waiting)
  · rcases List.mem_cons.mp member with rfl | outer
    · rcases List.mem_cons.mp listed with same | other
      · exact Or.inl ⟨leaves.symm, same⟩
      · exact Or.inr (Or.inr ⟨_, List.mem_cons_self, leaves, other⟩)
    · exact Or.inr (Or.inr ⟨branch, List.mem_cons_of_mem _ outer, leaves, listed⟩)

/-- An edge that is ahead is so after another node was entered, which it may leave. -/
theorem Ahead.enter {source target : String} (ahead : Ahead unseen branches source target)
    (edge : graph.HasInternalEdge source target) (known : child ∈ graph.nodes) :
    Ahead (unseen.erase child) (⟨child, graph.internalSuccessors child⟩ :: branches) source
      target := by
  rcases ahead with waiting | ⟨branch, member, leaves, listed⟩
  · by_cases entered : source = child
    · refine Or.inr ⟨_, List.mem_cons_self, entered.symm, ?_⟩
      exact (mem_internalSuccessors known).mpr (entered ▸ edge)
    · exact Or.inl ((List.mem_erase_of_ne entered).mpr waiting)
  · exact Or.inr ⟨branch, List.mem_cons_of_mem _ member, leaves, listed⟩

/-- A node between the ends of an edge that is looked at is on a reported cycle: the edge
leads back to the path, and the node is on the path behind its target. -/
theorem exists_reported_sweep (unique : Relator.LeftUnique down)
    (trail : graph.Trail unseen branches)
    (steps : ∀ step ∈ graph.descents unseen branches, down step.1 step.2)
    (way : IsWayDown down (pathOf branches)) {source target between : String}
    (ahead : Ahead unseen branches source target) (edge : graph.HasInternalEdge source target)
    (done : source ∉ (graph.sweep unseen branches).1)
    (above : Relation.ReflTransGen down target between)
    (below : Relation.ReflTransGen down between source) :
    ∃ cycle ∈ (graph.sweep unseen branches).2, between ∈ cycle := by
  induction unseen, branches using sweep.induct graph with
  | case1 unseen =>
      rw [sweep_nil] at done
      rcases ahead with waiting | ⟨_, none, -⟩
      · exact absurd waiting done
      · cases none
  | case2 unseen node branches ih =>
      rw [sweep_pop] at done ⊢
      rw [descents_pop] at steps
      exact ih trail.pop steps way.pop ahead.pop done
  | case3 unseen node child pending branches rest inside ih =>
      rw [sweep_push inside] at done ⊢
      rw [descents_push inside] at steps
      obtain ⟨entering, later⟩ := List.forall_mem_cons.mp steps
      have path : IsWayDown down (pathOf (⟨node, pending⟩ :: branches)) := way
      rcases ahead.look with ⟨rfl, rfl⟩ | ahead
      · -- Nothing above a node of the path is unseen.
        have onPath := path.mem_of_above unique (mem_pathOf_self _ _) (above.trans below)
        obtain ⟨branch, isBranch, isTarget⟩ := List.mem_map.mp (List.mem_reverse.mp onPath)
        exact absurd (isTarget ▸ inside) (trail.advance.seen branch isBranch)
      · exact ih (trail.push inside) later (path.push entering)
          (ahead.enter edge (trail.unseen_nodes inside)) done
  | case4 unseen node child pending branches rest outside _ _ _ ih =>
      rw [descents_look outside] at steps
      have path : IsWayDown down (pathOf (⟨node, pending⟩ :: branches)) := way
      have later := ih trail.advance steps path
      by_cases onPath : child ∈ pathOf (⟨node, pending⟩ :: branches)
      · rw [sweep_back outside onPath] at done ⊢
        rcases ahead.look with ⟨rfl, rfl⟩ | ahead
        · refine ⟨_, List.mem_cons_self, List.mem_append_left _ ?_⟩
          have distinct := List.nodup_reverse.mpr trail.advance.distinct
          exact path.mem_suffixFrom unique distinct (mem_pathOf_self _ _) above below
        · obtain ⟨cycle, reported, member⟩ := later ahead done
          exact ⟨cycle, List.mem_cons_of_mem _ reported, member⟩
      · rw [sweep_skip outside onPath] at done ⊢
        rcases ahead.look with ⟨rfl, rfl⟩ | ahead
        · exact absurd (path.mem_of_above unique (mem_pathOf_self _ _) (above.trans below)) onPath
        · exact later ahead done

/-- What is left unseen after a root was tried, still all different nodes of the graph. -/
theorem left_sublist {root : String} (fresh : unseen.Nodup) (inside : unseen ⊆ graph.nodes)
    (member : root ∈ unseen) (scanned : root ∈ graph.scanned) :
    let left := (graph.sweep (unseen.erase root) [⟨root, graph.internalSuccessors root⟩]).1
    left.Sublist (unseen.erase root) ∧ left.Nodup ∧ left ⊆ graph.nodes := by
  intro left
  have kept : left.Sublist (unseen.erase root) :=
    (reports_sweep (trail_root fresh inside member scanned)).sublist
  exact ⟨kept, kept.nodup (fresh.erase root),
    fun other late => inside (List.mem_of_mem_erase (kept.subset late))⟩

private theorem grows_descentsFrom {roots : List String} (fresh : unseen.Nodup)
    (inside : unseen ⊆ graph.nodes) (scanned : ∀ root ∈ roots, root ∈ graph.scanned) :
    graph.Grows unseen (graph.unseenAfter unseen roots) (graph.descentsFrom unseen roots) := by
  induction roots generalizing unseen with
  | nil =>
      rw [descentsFrom, unseenAfter]
      exact ⟨List.forall_mem_nil _, List.forall_mem_nil _, List.forall_mem_nil _, List.nodup_nil⟩
  | cons root roots ih =>
      obtain ⟨isScanned, others⟩ := List.forall_mem_cons.mp scanned
      rw [descentsFrom, unseenAfter]
      by_cases member : root ∈ unseen
      · rw [if_pos member, if_pos member]
        obtain ⟨kept, distinct, known⟩ := left_sublist fresh inside member isScanned
        have first := grows_descents (trail_root fresh inside member isScanned)
        have last := (reports_sweepRoots distinct known others).1.sublist
        refine Grows.append ⟨first.internal, ?_, first.seen, first.distinct⟩
          (ih distinct known others) (fun other late => List.mem_of_mem_erase (kept.subset late))
          last.subset
        exact fun step taken => List.mem_of_mem_erase (first.fresh step taken)
      · rw [if_neg member, if_neg member]
        exact ih fresh inside others

/-- The steps down from roots that are tried in turn are all steps down to what is unseen. -/
structure Owns (graph : Graph) (down : String → String → Prop) (unseen roots : List String) :
    Prop where
  steps : ∀ step ∈ graph.descentsFrom unseen roots, down step.1 step.2
  parents : ∀ source target, down source target → target ∈ unseen →
    (source, target) ∈ graph.descentsFrom unseen roots

private theorem Owns.skip {root : String} {roots : List String}
    (owns : graph.Owns down unseen (root :: roots)) (seen : root ∉ unseen) :
    graph.Owns down unseen roots := by
  obtain ⟨steps, parents⟩ := owns
  rw [descentsFrom, if_neg seen] at steps parents
  exact ⟨steps, parents⟩

/-- The first root has nothing above it, and the other roots own what it leaves unseen. -/
theorem Owns.split {root : String} {roots : List String}
    (owns : graph.Owns down unseen (root :: roots)) (fresh : unseen.Nodup)
    (inside : unseen ⊆ graph.nodes) (scanned : ∀ other ∈ root :: roots, other ∈ graph.scanned)
    (member : root ∈ unseen) :
    let branches := [⟨root, graph.internalSuccessors root⟩]
    (∀ step ∈ graph.descents (unseen.erase root) branches, down step.1 step.2) ∧
      IsWayDown down (pathOf branches) ∧
        graph.Owns down (graph.sweep (unseen.erase root) branches).1 roots := by
  intro branches
  obtain ⟨steps, parents⟩ := owns
  rw [descentsFrom, if_pos member] at steps parents
  obtain ⟨former, latter⟩ := List.forall_mem_append.mp steps
  obtain ⟨isScanned, others⟩ := List.forall_mem_cons.mp scanned
  obtain ⟨kept, distinct, known⟩ := left_sublist fresh inside member isScanned
  have first := grows_descents (trail_root fresh inside member isScanned)
  have later := grows_descentsFrom distinct known others
  have erased : root ∉ unseen.erase root := fun again => (fresh.mem_erase_iff.mp again).1 rfl
  refine ⟨former, ⟨List.isChain_singleton root, ?_⟩, ⟨latter, ?_⟩⟩
  · intro top isTop source above
    cases isTop
    rcases List.mem_append.mp (parents source root above member) with early | late
    · exact erased (first.fresh _ early)
    · exact erased (kept.subset (later.fresh _ late))
  · intro source target above waiting
    have member := List.mem_of_mem_erase (kept.subset waiting)
    rcases List.mem_append.mp (parents source target above member) with early | late
    · exact absurd waiting (first.seen _ early)
    · exact late

private theorem isChain_sweepRoots {roots : List String} (owns : graph.Owns down unseen roots)
    (fresh : unseen.Nodup) (inside : unseen ⊆ graph.nodes)
    (scanned : ∀ root ∈ roots, root ∈ graph.scanned) :
    ∀ cycle ∈ graph.sweepRoots unseen roots, cycle.dropLast.IsChain down := by
  induction roots generalizing unseen with
  | nil => exact fun cycle member => absurd member List.not_mem_nil
  | cons root roots ih =>
      obtain ⟨isScanned, others⟩ := List.forall_mem_cons.mp scanned
      rw [sweepRoots]
      by_cases member : root ∈ unseen
      · rw [if_pos member]
        obtain ⟨-, distinct, known⟩ := left_sublist fresh inside member isScanned
        obtain ⟨steps, way, rest⟩ := owns.split fresh inside scanned member
        exact List.forall_mem_append.mpr
          ⟨isChain_sweep steps way, ih rest distinct known others⟩
      · rw [if_neg member]
        exact ih (owns.skip member) fresh inside others

private theorem exists_reported_sweepRoots {roots : List String}
    (owns : graph.Owns down unseen roots) (unique : Relator.LeftUnique down) (fresh : unseen.Nodup)
    (inside : unseen ⊆ graph.nodes) (scanned : ∀ root ∈ roots, root ∈ graph.scanned)
    {source target between : String} (edge : graph.HasInternalEdge source target)
    (waiting : source ∈ unseen) (done : source ∉ graph.unseenAfter unseen roots)
    (above : Relation.ReflTransGen down target between)
    (below : Relation.ReflTransGen down between source) :
    ∃ cycle ∈ graph.sweepRoots unseen roots, between ∈ cycle := by
  induction roots generalizing unseen with
  | nil => exact absurd waiting done
  | cons root roots ih =>
      obtain ⟨isScanned, others⟩ := List.forall_mem_cons.mp scanned
      rw [unseenAfter] at done
      rw [sweepRoots]
      by_cases member : root ∈ unseen
      · rw [if_pos member] at done ⊢
        obtain ⟨-, distinct, known⟩ := left_sublist fresh inside member isScanned
        obtain ⟨steps, way, rest⟩ := owns.split fresh inside scanned member
        by_cases late : source ∈ (graph.sweep (unseen.erase root)
            [⟨root, graph.internalSuccessors root⟩]).1
        · obtain ⟨cycle, reported, onCycle⟩ := ih rest distinct known others late done
          exact ⟨cycle, List.mem_append_right _ reported, onCycle⟩
        · have ahead : Ahead (unseen.erase root) [⟨root, graph.internalSuccessors root⟩]
              source target :=
            Ahead.enter (Or.inl waiting) edge (inside member)
          have trail := trail_root fresh inside member isScanned
          obtain ⟨cycle, reported, onCycle⟩ :=
            exists_reported_sweep unique trail steps way ahead edge late above below
          exact ⟨cycle, List.mem_append_left _ reported, onCycle⟩
      · rw [if_neg member] at done ⊢
        exact ih (owns.skip member) fresh inside others waiting done

end Exploration

private theorem grows_forest (graph : Graph) :
    graph.Grows graph.nodes (graph.unseenAfter graph.nodes graph.scanned) graph.forest :=
  grows_descentsFrom graph.nodes_nodup (List.Subset.refl _) fun _ member => member

private theorem owns_stepsDown (graph : Graph) :
    graph.Owns graph.StepsDown graph.nodes graph.scanned :=
  ⟨fun _ taken => taken, fun _ _ taken _ => taken⟩

/-- A node is stepped down to from one node at most. -/
theorem stepsDown_leftUnique (graph : Graph) : Relator.LeftUnique graph.StepsDown := by
  intro source target other one two
  have same := List.inj_on_of_nodup_map graph.grows_forest.distinct one two rfl
  exact congrArg Prod.fst same

private theorem StepsDown.internal {graph : Graph} {source target : String}
    (step : graph.StepsDown source target) : graph.HasInternalEdge source target :=
  graph.grows_forest.internal _ step

/-- An internal edge leads from a node below this one, or from itself, to a node above it, or to
itself. -/
def IsBridged (graph : Graph) (node : String) : Prop :=
  ∃ source target, graph.HasInternalEdge source target ∧
    Relation.ReflTransGen graph.StepsDown target node ∧
      Relation.ReflTransGen graph.StepsDown node source

/-- A bridged node lies on a closed walk of internal edges. -/
theorem IsBridged.transGen {graph : Graph} {node : String} (bridged : graph.IsBridged node) :
    Relation.TransGen graph.HasInternalEdge node node := by
  obtain ⟨source, target, edge, above, below⟩ := bridged
  have internal : graph.StepsDown ≤ graph.HasInternalEdge := fun _ _ step => step.internal
  have onward := Relation.ReflTransGen.mono internal _ _ below
  have back := Relation.ReflTransGen.mono internal _ _ above
  exact (Relation.TransGen.tail' onward edge).trans_left back

/-- A node is on a reported cycle exactly if an internal edge bridges it. -/
theorem mem_reported_iff {graph : Graph}
    (known : ∀ source target, graph.HasInternalEdge source target → source ∈ graph.scanned)
    (node : String) :
    (∃ cycle ∈ graph.detectCycles, node ∈ cycle) ↔ graph.IsBridged node := by
  have inside := List.Subset.refl graph.nodes
  constructor
  case mp =>
    intro onCycle
    obtain ⟨cycle, reported, member⟩ := onCycle
    have linked := isChain_sweepRoots graph.owns_stepsDown graph.nodes_nodup inside
      (fun _ scanned => scanned) cycle (graph.detectCycles_eq_sweepRoots ▸ reported)
    have isCycle := graph.reports_detectCycles.cycle cycle reported
    obtain ⟨start, inner, rfl⟩ := isCycle.exists_eq
    rw [List.dropLast_concat] at linked
    obtain ⟨last, isLast⟩ : ∃ last, (start :: inner).getLast? = some last :=
      ⟨_, List.getLast?_eq_some_getLast (List.cons_ne_nil _ _)⟩
    have closes := (List.isChain_append.mp isCycle.linked).2.2 last isLast start rfl
    have onWay : node ∈ start :: inner := by
      rcases List.mem_append.mp member with early | again
      · exact early
      · exact List.mem_singleton.mp again ▸ List.mem_cons_self
    exact ⟨last, start, closes, reflTransGen_of_mem_chain linked rfl isLast onWay⟩
  case mpr =>
    intro ends
    obtain ⟨source, target, edge, above, below⟩ := ends
    have scanned := known source target edge
    have done := (reports_sweepRoots graph.nodes_nodup inside fun _ member => member).2
    rw [detectCycles_eq_sweepRoots]
    exact exists_reported_sweepRoots graph.owns_stepsDown graph.stepsDown_leftUnique
      graph.nodes_nodup inside (fun _ member => member) edge (graph.scanned_nodes source scanned)
      (done source scanned) above below

end ModuleAtlas.Graph
