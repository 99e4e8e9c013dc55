import ModuleAtlas.Proofs.Graph.Cycles
import ModuleAtlas.Proofs.Graph.Enumeration

/-! # A reported cycle has one edge back

When a depth-first pass reports a cycle, all steps of the cycle but the last are links of
its path, and the last closes it. An edge is looked at once, and then it becomes a link, or
it closes a cycle, or nothing comes of it. So no edge that closes a reported cycle is an
inner step of a reported cycle (`ModuleAtlas.Graph.Parts`), and no two reported cycles are
rotations of one another (`ModuleAtlas.Graph.detectCycles_pairwise`).
-/

namespace ModuleAtlas.Graph

/-- No branch has the node of the branch inside it still pending. -/
def Descended (branches : List Branch) : Prop :=
  branches.IsChain fun inner outer => inner.node ∉ outer.pending

section Links

variable {graph : Graph} {unseen pending : List String} {branches : List Branch}
  {node child source target : String}

private theorem Descended.advance (descended : Descended (⟨node, child :: pending⟩ :: branches)) :
    Descended (⟨node, pending⟩ :: branches) := by
  match branches with
  | [] => exact List.isChain_singleton _
  | outer :: branches =>
      obtain ⟨first, others⟩ := List.isChain_cons_cons.mp descended
      exact List.isChain_cons_cons.mpr ⟨first, others⟩

private theorem Descended.push (descended : Descended (⟨node, child :: pending⟩ :: branches))
    (trail : graph.Trail unseen (⟨node, child :: pending⟩ :: branches)) :
    Descended (⟨child, graph.internalSuccessors child⟩ :: ⟨node, pending⟩ :: branches) :=
  List.isChain_cons_cons.mpr ⟨trail.notMem_pending, descended.advance⟩

/-- A step of the path leads from a branch to the branch inside it. -/
theorem link_iff : [source, target] <:+: pathOf branches ↔
    ∃ front inner outer back, branches = front ++ inner :: outer :: back ∧
      inner.node = target ∧ outer.node = source := by
  constructor
  · intro link
    have turned : [target, source] <:+: branches.map Branch.node := by
      simpa [pathOf] using List.reverse_infix.mpr link
    obtain ⟨before, after, whole⟩ := turned
    rw [List.append_assoc] at whole
    obtain ⟨front, others, rfl, -, rest⟩ := List.map_eq_append_iff.mp whole.symm
    obtain ⟨inner, others, rfl, isTarget, rest⟩ := List.map_eq_cons_iff.mp rest
    obtain ⟨outer, back, rfl, isSource, -⟩ := List.map_eq_cons_iff.mp rest
    exact ⟨front, inner, outer, back, rfl, isTarget, isSource⟩
  · rintro ⟨front, inner, outer, back, rfl, rfl, rfl⟩
    exact ⟨(back.map Branch.node).reverse, (front.map Branch.node).reverse, by simp [pathOf]⟩

/-- A link of the path was looked at. -/
theorem Trail.link_not_ahead (trail : graph.Trail unseen branches)
    (descended : Descended branches) (link : [source, target] <:+: pathOf branches) :
    ¬ Ahead unseen branches source target := by
  obtain ⟨front, inner, outer, back, rfl, rfl, rfl⟩ := link_iff.mp link
  have isOuter : outer ∈ front ++ inner :: outer :: back := 
    List.mem_append_right front (List.mem_cons_of_mem inner List.mem_cons_self)
  rintro (waiting | ⟨branch, member, leaves, listed⟩)
  · exact trail.seen outer isOuter waiting
  · -- Only one branch has this node, and the node inside it is not pending there.
    obtain rfl := List.inj_on_of_nodup_map trail.distinct member isOuter leaves
    have linked := descended.suffix (List.suffix_append front _)
    exact (List.isChain_cons_cons.mp linked).1 listed

/-- No link leaves the last node of the path. -/
theorem Trail.ne_of_link (trail : graph.Trail unseen (⟨node, pending⟩ :: branches))
    (link : [source, target] <:+: pathOf (⟨node, pending⟩ :: branches)) : source ≠ node := by
  rintro rfl
  obtain ⟨front, inner, outer, back, whole, -, isSource⟩ := link_iff.mp link
  have distinct := trail.distinct
  match front with
  | [] =>
      obtain ⟨rfl, rfl⟩ := List.cons.inj whole
      exact (List.nodup_cons.mp distinct).1 (by simp [isSource])
  | _ :: front =>
      rw [List.cons_append] at whole
      obtain ⟨rfl, rfl⟩ := List.cons.inj whole
      exact (List.nodup_cons.mp distinct).1 (by simp [isSource])

end Links

/-- What a depth-first pass keeps apart: an inner step of a reported cycle is a link of the
path or was ahead, and it does not close a reported cycle. -/
structure Parts (unseen : List String) (branches : List Branch) (left : List String)
    (cycles : List (List String)) : Prop where
  visited : ∀ cycle ∈ cycles, ∀ node ∈ cycle, node ∉ left
  inner : ∀ cycle ∈ cycles, ∀ source target, [source, target] <:+: cycle.dropLast →
    [source, target] <:+: pathOf branches ∨ Ahead unseen branches source target
  apart : ∀ cycle ∈ cycles, ∀ source target, [source, target] <:+: cycle.dropLast →
    (some source, some target) ∉ cycles.map closingEdge

section Exploration

variable {graph : Graph} {unseen pending left : List String} {branches : List Branch}
  {cycles : List (List String)} {node child : String}

private theorem Parts.mono {fewer : List String} {others : List Branch}
    (parts : Parts fewer others left cycles)
    (kept : ∀ source target,
      [source, target] <:+: pathOf others ∨ Ahead fewer others source target →
        [source, target] <:+: pathOf branches ∨ Ahead unseen branches source target) :
    Parts unseen branches left cycles :=
  ⟨parts.visited, fun cycle member source target step =>
    kept source target (parts.inner cycle member source target step), parts.apart⟩

private theorem Parts.back (parts : Parts unseen (⟨node, pending⟩ :: branches) left cycles)
    (reports : graph.Reports unseen (⟨node, pending⟩ :: branches) left cycles)
    (trail : graph.Trail unseen (⟨node, child :: pending⟩ :: branches))
    (descended : Descended (⟨node, child :: pending⟩ :: branches))
    (onPath : child ∈ pathOf (⟨node, pending⟩ :: branches)) :
    Parts unseen (⟨node, child :: pending⟩ :: branches) left
      ((suffixFrom child (pathOf (⟨node, pending⟩ :: branches)) ++ [child]) :: cycles) := by
  have closes := closingEdge_suffixFrom onPath
  have rest := trail.advance
  have suffix := suffixFrom_suffix child (pathOf (⟨node, pending⟩ :: branches))
  have linkOf : ∀ source target,
      [source, target] <:+: (suffixFrom child (pathOf (⟨node, pending⟩ :: branches)) ++
        [child]).dropLast → [source, target] <:+: pathOf (⟨node, pending⟩ :: branches) := by
    intro source target step
    rw [List.dropLast_concat] at step
    exact step.trans suffix.isInfix
  have seen : ∀ other ∈ pathOf (⟨node, pending⟩ :: branches), other ∉ left := by
    intro other member late
    obtain ⟨branch, listed, rfl⟩ := List.mem_map.mp (List.mem_reverse.mp member)
    exact rest.seen branch listed (reports.sublist.subset late)
  constructor
  case visited =>
    refine List.forall_mem_cons.mpr ⟨fun other member => ?_, parts.visited⟩
    rcases List.mem_append.mp member with early | last
    · exact seen other (suffix.subset early)
    · exact seen other (List.mem_singleton.mp last ▸ onPath)
  case inner =>
    refine List.forall_mem_cons.mpr ⟨fun source target step => Or.inl (linkOf source target step),
      fun cycle member source target step => ?_⟩
    exact (parts.inner cycle member source target step).imp_right Ahead.of_advance
  case apart =>
    intro cycle listed source target step
    rw [List.map_cons, closes, List.mem_cons]
    rintro (same | again)
    · cases same
      rcases List.mem_cons.mp listed with rfl | member
      · exact rest.ne_of_link (linkOf node child step) rfl
      · rcases parts.inner cycle member node child step with link | ahead
        · exact rest.ne_of_link link rfl
        · exact trail.not_ahead ahead
    · rcases List.mem_cons.mp listed with rfl | member
      · -- A cycle that is reported later is closed by an edge ahead, which no link is.
        obtain ⟨cycle, member, same⟩ := List.mem_map.mp again
        obtain ⟨_, _, other, ahead, -⟩ := reports.closing cycle member
        cases other.symm.trans same
        exact rest.link_not_ahead descended.advance (linkOf source target step) ahead
      · exact parts.apart cycle member source target step again

/-- A link of the path with one more branch was a link before, or leads to that branch. -/
theorem link_or_ahead_of_push {successors : List String} {source target : String}
    (link : [source, target] <:+: pathOf (⟨child, successors⟩ :: ⟨node, pending⟩ :: branches)) :
    [source, target] <:+: pathOf (⟨node, child :: pending⟩ :: branches) ∨
      Ahead unseen (⟨node, child :: pending⟩ :: branches) source target := by
  obtain ⟨front, inner, outer, back, whole, isTarget, isSource⟩ := link_iff.mp link
  match front with
  | [] =>
      obtain ⟨rfl, others⟩ := List.cons.inj whole
      obtain ⟨rfl, rfl⟩ := List.cons.inj others
      exact Or.inr (Or.inr ⟨_, List.mem_cons_self, isSource, isTarget ▸ List.mem_cons_self⟩)
  | _ :: front =>
      rw [List.cons_append] at whole
      obtain ⟨rfl, others⟩ := List.cons.inj whole
      -- The path of a stack does not depend on what is pending.
      exact Or.inl (show _ <:+: pathOf (⟨node, pending⟩ :: branches) from
        link_iff.mpr ⟨front, inner, outer, back, others, isTarget, isSource⟩)

private theorem parts_sweep (trail : graph.Trail unseen branches) (descended : Descended branches) :
    Parts unseen branches (graph.sweep unseen branches).1 (graph.sweep unseen branches).2 := by
  induction unseen, branches using sweep.induct graph with
  | case1 unseen =>
      rw [sweep_nil]
      exact ⟨List.forall_mem_nil _, List.forall_mem_nil _, List.forall_mem_nil _⟩
  | case2 unseen node branches ih =>
      rw [sweep_pop]
      apply (ih trail.pop descended.tail).mono
      rintro source target (link | ahead)
      · refine Or.inl (link.trans ?_)
        rw [pathOf, pathOf, List.map_cons, List.reverse_cons]
        exact List.infix_append_left
      · exact Or.inr ahead.of_pop
  | case3 unseen node child pending branches rest inside ih =>
      rw [sweep_push inside]
      apply (ih (trail.push inside) (descended.push trail)).mono
      rintro source target (link | ahead)
      · exact link_or_ahead_of_push link
      · exact Or.inr (ahead.of_push inside).of_advance
  | case4 unseen node child pending branches rest outside _ _ _ ih =>
      have parts := ih trail.advance descended.advance
      by_cases onPath : child ∈ pathOf (⟨node, pending⟩ :: branches)
      · rw [sweep_back outside onPath]
        exact parts.back (reports_sweep trail.advance) trail descended onPath
      · rw [sweep_skip outside onPath]
        apply parts.mono
        exact fun source target either => either.imp_right Ahead.of_advance

private theorem not_link_of_short {source target : String} (short : branches.length ≤ 1) :
    ¬ [source, target] <:+: pathOf branches := by
  intro link
  have fits := link.length_le
  rw [pathOf, List.length_reverse, List.length_map] at fits
  have two : [source, target].length = 2 := rfl
  omega

/-- What one root reports and what the roots after it report are kept apart. -/
theorem Parts.append {middle : List String} {first second : List (List String)}
    (early : Parts unseen [] middle first) (former : graph.Reports unseen [] middle first)
    (late : Parts middle [] left second) (latter : graph.Reports middle [] left second) :
    Parts unseen [] left (first ++ second) := by
  have sourceOf : ∀ {nodes : List String} {source target : String},
      Ahead nodes [] source target → source ∈ nodes := by
    rintro nodes source target (waiting | ⟨_, none, _⟩)
    · exact waiting
    · cases none
  have stepAhead : ∀ cycle ∈ second, ∀ source target, [source, target] <:+: cycle.dropLast →
      source ∈ middle := fun cycle member source target step =>
    sourceOf ((late.inner cycle member source target step).resolve_left
      (not_link_of_short (Nat.zero_le 1)))
  constructor
  case visited =>
    refine List.forall_mem_append.mpr ⟨fun cycle member node listed done => ?_, late.visited⟩
    exact early.visited cycle member node listed (latter.sublist.subset done)
  case inner =>
    refine List.forall_mem_append.mpr ⟨early.inner, fun cycle member source target step => ?_⟩
    exact Or.inr (Or.inl (former.sublist.subset (stepAhead cycle member source target step)))
  case apart =>
    intro cycle listed source target step
    rw [List.map_append, List.mem_append]
    rintro (closes | closes)
    · rcases List.mem_append.mp listed with member | member
      · exact early.apart cycle member source target step closes
      · -- The former roots left no edge of the latter ones unseen.
        obtain ⟨other, reported, same⟩ := List.mem_map.mp closes
        obtain ⟨_, _, ends, -, seen, -⟩ := former.closing other reported
        cases ends.symm.trans same
        exact seen (stepAhead cycle member source target step)
    · rcases List.mem_append.mp listed with member | member
      · obtain ⟨other, reported, same⟩ := List.mem_map.mp closes
        obtain ⟨_, _, ends, ahead, -⟩ := latter.closing other reported
        cases ends.symm.trans same
        have onCycle : source ∈ cycle := List.mem_of_mem_dropLast (step.subset List.mem_cons_self)
        exact early.visited cycle member source onCycle (sourceOf ahead)
      · exact late.apart cycle member source target step closes

private theorem parts_root {root : String}
    (trail : graph.Trail (unseen.erase root) [⟨root, graph.internalSuccessors root⟩])
    (member : root ∈ unseen) :
    Parts unseen [] (graph.sweep (unseen.erase root) [⟨root, graph.internalSuccessors root⟩]).1
      (graph.sweep (unseen.erase root) [⟨root, graph.internalSuccessors root⟩]).2 := by
  apply (parts_sweep trail (List.isChain_singleton _)).mono
  rintro source target (link | ahead)
  · exact absurd link (not_link_of_short le_rfl)
  · exact Or.inr (ahead.of_push member)

private theorem parts_sweepRoots {roots : List String} (fresh : unseen.Nodup)
    (inside : unseen ⊆ graph.nodes) (scanned : ∀ root ∈ roots, root ∈ graph.scanned) :
    Parts unseen [] (graph.unseenAfter unseen roots) (graph.sweepRoots unseen roots) := by
  induction roots generalizing unseen with
  | nil =>
      rw [sweepRoots, unseenAfter]
      exact ⟨List.forall_mem_nil _, List.forall_mem_nil _, List.forall_mem_nil _⟩
  | cons root roots ih =>
      have others := fun other member => scanned other (List.mem_cons_of_mem root member)
      rw [sweepRoots, unseenAfter]
      by_cases member : root ∈ unseen
      · rw [if_pos member, if_pos member]
        have trail := trail_root fresh inside member (scanned root List.mem_cons_self)
        have former := reports_sweep trail
        have left := former.sublist.nodup (fresh.erase root)
        have kept := fun other (late : other ∈ (graph.sweep (unseen.erase root)
            [⟨root, graph.internalSuccessors root⟩]).1) =>
          inside (List.mem_of_mem_erase (former.sublist.subset late))
        exact (parts_root trail member).append
          (former.mono List.erase_sublist fun _ _ => Ahead.of_push member)
          (ih left kept others) (reports_sweepRoots left kept others).1
      · rw [if_neg member, if_neg member]
        exact ih fresh inside others

end Exploration

private theorem parts_detectCycles (graph : Graph) :
    Parts graph.nodes [] (graph.unseenAfter graph.nodes graph.scanned) graph.detectCycles := by
  rw [detectCycles_eq_sweepRoots]
  exact parts_sweepRoots graph.nodes_nodup (List.Subset.refl _) fun _ member => member

/-- The edge that closes a cycle leads from the last node before the closing to the first. -/
theorem IsCycle.closingEdge_eq {graph : Graph} {cycle : List String}
    (isCycle : graph.IsCycle cycle) :
    closingEdge cycle = (cycle.dropLast.getLast?, cycle.dropLast.head?) := by
  obtain ⟨start, inner, rfl⟩ := isCycle.exists_eq
  rw [closingEdge, List.dropLast_concat, List.getLast?_concat, List.head?_cons]

/-- Two rotations are closed by one edge, or the edge that closes the second is an inner
step of the first. -/
theorem closingEdge_eq_or_inner {graph : Graph} {first second : List String}
    (one : graph.IsCycle first) (other : graph.IsCycle second) (same : IsSameCycle first second) :
    closingEdge first = closingEdge second ∨ ∃ source target,
      closingEdge second = (some source, some target) ∧ [source, target] <:+: first.dropLast := by
  rw [one.closingEdge_eq, other.closingEdge_eq]
  obtain ⟨front, back, whole, turned⟩ := exists_append_of_isRotated same
  rw [whole, turned]
  rcases List.eq_nil_or_concat' front with rfl | ⟨front, source, rfl⟩
  · rw [List.nil_append, List.append_nil]
    exact Or.inl rfl
  · match back with
    | [] =>
        rw [List.nil_append, List.append_nil]
        exact Or.inl rfl
    | target :: back =>
        refine Or.inr ⟨source, target, ?_, front, back, by simp⟩
        rw [← List.append_assoc, List.getLast?_concat, List.append_assoc, List.cons_append,
          List.head?_cons]

/-- No two reported cycles are rotations of one another. -/
theorem detectCycles_pairwise (graph : Graph) :
    graph.detectCycles.Pairwise fun first second => ¬ IsSameCycle first second := by
  have reports := graph.reports_detectCycles
  have distinct := List.pairwise_map.mp reports.distinct
  apply distinct.imp_of_mem
  intro first second early late different same
  rcases closingEdge_eq_or_inner (reports.cycle first early) (reports.cycle second late) same with
    equal | ⟨source, target, closes, step⟩
  · exact different equal
  · apply graph.parts_detectCycles.apart first early source target step
    exact List.mem_map.mpr ⟨second, late, closes⟩

end ModuleAtlas.Graph
