import Mathlib.Data.List.Forall2
import Mathlib.Data.List.Induction
import ModuleAtlas.Proofs.Path.Spelling
import ModuleAtlas.Proofs.SourceFilter
import ModuleAtlas.Proofs.Text.Listing
import ModuleAtlas.Proofs.Text.Utf8
import ModuleAtlas.Watch

/-! # What a watcher hands on

A watcher is given events, flushes and stops in any order, and the callback that takes its
batches may end in any way at any of them. The flushes that hand a batch on cut what the watcher
was given into stretches (`ModuleAtlas.Watcher.Cut`). Each batch holds the files that the events
of its stretch bring (`ModuleAtlas.Watcher.Brings`), and the files still collected are those that
were brought after the last of these flushes (`ModuleAtlas.Watcher.accounts_course`).

An error of the callback is reported and goes no further. What is no error is passed on by the
flush, but the batch has been handed on by then (`ModuleAtlas.Watcher.receive_flush_of_ne`).
-/

namespace ModuleAtlas.Watcher

/-- The paths that an event touches: that of a file which was created, modified, deleted or
moved, and the one that it was moved to. -/
inductive Touches : WatchEvent → EventPath → Prop where
  | source {event : WatchEvent} (isFile : event.isDirectory = false)
      (alters : event.change = .created ∨ event.change = .modified ∨ event.change = .deleted ∨
        event.change = .moved) : Touches event event.path
  | destination {event : WatchEvent} (isFile : event.isDirectory = false)
      (moved : event.change = .moved) : Touches event event.destination

/-- A path spells a text: it is the text, or its bytes in UTF-8. -/
inductive Spells : EventPath → String → Prop where
  | text (text : String) : Spells (.text text) text
  | bytes (text : String) : Spells (.bytes text.toUTF8.toList) text

/-- A text is the path of a file that is watched below a root. The names are compared as they are
written, so that a path which leaves the root by `..` lies below it too. -/
def Takes (root : Path) (filter : SourceFilter) (text file : String) : Prop :=
  ∃ parts, (Path.ofString text).root = root.root ∧
    (Path.ofString text).parts = root.parts ++ parts ∧ filter.Passes parts ∧
    file = Path.relativeText parts

/-- An event brings a file: one of the paths that it touches is that of the file, and all of them
spell a text. -/
def Brings (root : Path) (filter : SourceFilter) (event : WatchEvent) (file : String) : Prop :=
  (∀ path, Touches event path → ∃ text, Spells path text) ∧
    ∃ path text, Touches event path ∧ Spells path text ∧ Takes root filter text file

/-- Signals bring a file: an event among them does. -/
def Brought (root : Path) (filter : SourceFilter) (signals : List Signal) (file : String) : Prop :=
  ∃ event, .event event ∈ signals ∧ Brings root filter event file

/-- A list holds each of some files once, and nothing else. -/
def Holds (batch : List String) (files : String → Prop) : Prop :=
  batch.Nodup ∧ ∀ file, file ∈ batch ↔ files file

private theorem nodup_asSet (files : List String) : (asSet files).Nodup :=
  (List.mergeSort_perm _ _).nodup_iff.mpr (Text.nodup_eraseDups files)

/-- A set of files holds the files it was made of. -/
theorem mem_asSet {files : List String} {file : String} : file ∈ asSet files ↔ file ∈ files := by
  rw [asSet, Text.sortTexts, List.mem_mergeSort, List.mem_eraseDups]

/-- Only no files make an empty set. -/
theorem asSet_eq_nil_iff {files : List String} : asSet files = [] ↔ files = [] := by
  simp only [List.eq_nil_iff_forall_not_mem, mem_asSet]

private theorem Holds.eq_nil_iff {batch : List String} {files : String → Prop}
    (holds : Holds batch files) : batch = [] ↔ ∀ file, ¬ files file := by
  simp only [List.eq_nil_iff_forall_not_mem, holds.2]

/-- The watcher with some files more, and its timer set. -/
def gather (watcher : Watcher) (files : List String) : Watcher :=
  { watcher with pending := asSet (watcher.pending ++ asSet files), timer := true }

section Paths

variable {event : WatchEvent} {path : EventPath} {text file : String} {watcher : Watcher}

private theorem mem_touched_iff : path ∈ touched event ↔ Touches event path := by
  unfold touched
  constructor
  · intro listed
    split at listed
    · cases listed
    · next content =>
        rw [Bool.or_eq_true, not_or, Bool.not_eq_true, Bool.not_eq_true,
          Bool.not_eq_false'] at content
        obtain ⟨isFile, alters⟩ := content
        have kinds : event.change = .created ∨ event.change = .modified ∨
            event.change = .deleted ∨ event.change = .moved := by
          cases kind : event.change <;> simp_all [Change.altersContent]
        split at listed
        · next moved =>
            rcases List.mem_pair.mp listed with rfl | rfl
            · exact .source isFile kinds
            · exact .destination isFile moved
        · rw [List.mem_singleton.mp listed]
          exact .source isFile kinds
  · intro touches
    cases touches with
    | source isFile alters =>
        have content : event.change.altersContent = true := by
          rcases alters with kind | kind | kind | kind <;> rw [kind] <;> rfl
        rw [isFile, content]
        by_cases moved : event.change = .moved
        · rw [if_pos moved]
          exact List.mem_cons_self
        · rw [if_neg moved]
          exact List.mem_cons_self
    | destination isFile moved =>
        rw [isFile, moved]
        exact List.mem_cons_of_mem _ List.mem_cons_self

private theorem textOf_eq_ok_iff : textOf path = .ok text ↔ Spells path text := by
  cases path with
  | text own =>
      constructor
      · intro same
        cases same
        exact .text text
      · intro spells
        cases spells
        rfl
  | bytes own =>
      have decoded : textOf (.bytes own) = .ok text ↔ Text.Utf8.decode own = .ok text := by
        rw [textOf]
        cases Text.Utf8.decode own with
        | error fault =>
            exact iff_of_false (fun failed => nomatch failed) fun failed => nomatch failed
        | ok own =>
            rw [Except.mapError, Except.ok.injEq, Except.ok.injEq]
      rw [decoded, Text.Utf8.decode_eq_ok_iff]
      constructor
      · rintro rfl
        exact .bytes text
      · intro spells
        cases spells
        rfl

/-- The paths of watched files are those that a watcher takes in. -/
theorem accepted?_eq_some_iff :
    watcher.accepted? text = some file ↔ Takes watcher.root watcher.filter text file := by
  unfold Takes accepted?
  constructor
  · intro accepted
    cases below : (Path.ofString text).relativeTo? watcher.root with
    | none =>
        rw [below] at accepted
        cases accepted
    | some parts =>
        rw [below] at accepted
        obtain ⟨kind, whole⟩ := Path.root_and_parts_of_relativeTo? below
        refine ⟨parts, kind, whole, ?_⟩
        dsimp only [bind, Option.bind] at accepted
        split at accepted
        · cases accepted
        · next passes =>
            rw [Bool.or_eq_true, not_or, Bool.not_eq_true, Bool.not_eq_true,
              Bool.not_eq_false'] at passes
            cases accepted
            exact ⟨(SourceFilter.passes_iff (Path.isProper_of_relativeTo? below)).mpr passes, rfl⟩
  · rintro ⟨parts, kind, whole, passes, rfl⟩
    have proper : ∀ part ∈ parts, Path.IsProper part := fun part member =>
      (Path.ofString text).proper part (whole ▸ List.mem_append_right _ member)
    have path : Path.ofString text = watcher.root.extend parts proper :=
      Path.eq_of_parts kind whole
    obtain ⟨spared, supported⟩ := (SourceFilter.passes_iff proper).mp passes
    rw [path, Path.relativeTo?_extend]
    dsimp only [bind, Option.bind]
    rw [spared, supported]
    rfl

/-- Paths spell texts one by one, or else one of them spells none. -/
private theorem mapM_textOf_cases (paths : List EventPath) :
    (∃ texts, paths.mapM textOf = .ok texts ∧ (∀ path ∈ paths, ∃ text, Spells path text) ∧
      ∀ text, text ∈ texts ↔ ∃ path ∈ paths, Spells path text) ∨
    ((∃ failure, paths.mapM textOf = .error failure) ∧
      ∃ path ∈ paths, ¬ ∃ text, Spells path text) := by
  induction paths with
  | nil =>
      refine Or.inl ⟨[], rfl, List.forall_mem_nil _, fun text => ?_⟩
      simp only [List.not_mem_nil, false_and, exists_false]
  | cons path paths ih =>
      rw [List.mapM_cons]
      cases spelled : textOf path with
      | error failure =>
          refine Or.inr ⟨⟨failure, rfl⟩, path, List.mem_cons_self, ?_⟩
          rintro ⟨text, spells⟩
          cases (textOf_eq_ok_iff.mpr spells).symm.trans spelled
      | ok first =>
          have spells : ∀ text, Spells path text ↔ text = first := fun text => by
            rw [← textOf_eq_ok_iff, spelled, Except.ok.injEq, eq_comm]
          rcases ih with ⟨texts, read, all, listed⟩ | ⟨⟨failure, refused⟩, garbled, member, none⟩
          · rw [read]
            refine Or.inl ⟨first :: texts, rfl, ?_, fun text => ?_⟩
            · exact List.forall_mem_cons.mpr ⟨⟨first, (spells first).mpr rfl⟩, all⟩
            · simp only [List.mem_cons, listed, exists_eq_or_imp, spells]
          · rw [refused]
            exact Or.inr ⟨⟨failure, rfl⟩, garbled, List.mem_cons_of_mem path member, none⟩

/-- What a watcher does with an event: it refuses one that touches a path which spells no text,
it passes over one that brings no file, and it gathers the files of any other. -/
theorem handle_cases (watcher : Watcher) (event : WatchEvent) :
    ((∃ failure, watcher.handle event = .error failure) ∧
      ∃ path, Touches event path ∧ ¬ ∃ text, Spells path text) ∨
    ∃ files, (∀ file, file ∈ files ↔ Brings watcher.root watcher.filter event file) ∧
      ((files = [] ∧ watcher.handle event = .ok (watcher, [])) ∨
        files ≠ [] ∧ ∃ notices, watcher.handle event = .ok (watcher.gather files, notices)) := by
  rcases mapM_textOf_cases (touched event) with ⟨texts, read, all, listed⟩ |
    ⟨⟨failure, refused⟩, path, member, none⟩
  · right
    have brings : ∀ file, file ∈ texts.filterMap watcher.accepted? ↔
        Brings watcher.root watcher.filter event file := by
      intro file
      simp only [List.mem_filterMap, listed, accepted?_eq_some_iff, mem_touched_iff, Brings]
      simp only [mem_touched_iff] at all
      constructor
      · rintro ⟨text, ⟨path, touches, spells⟩, takes⟩
        exact ⟨all, path, text, touches, spells, takes⟩
      · rintro ⟨-, path, text, touches, spells, takes⟩
        exact ⟨text, ⟨path, touches, spells⟩, takes⟩
    refine ⟨_, brings, ?_⟩
    have empty : (asSet (texts.filterMap watcher.accepted?)).isEmpty = true ↔
        texts.filterMap watcher.accepted? = [] := by
      rw [List.isEmpty_iff, asSet_eq_nil_iff]
    unfold handle
    rw [read]
    by_cases blank : texts.filterMap watcher.accepted? = []
    · exact Or.inl ⟨blank, if_pos (empty.mpr blank)⟩
    · exact Or.inr ⟨blank, _, if_neg fun none => blank (empty.mp none)⟩
  · left
    refine ⟨⟨failure, ?_⟩, path, mem_touched_iff.mp member, none⟩
    unfold handle
    rw [refused]
    rfl

end Paths

section Receive

variable {callback : List (List String) → CallbackEnd} {course : Course} {event : WatchEvent}

/-- An event that brings no file changes nothing. -/
theorem receive_event_of_none
    (none : ∀ file, ¬ Brings course.watcher.root course.watcher.filter event file) :
    (course.receive callback (.event event)).course = course := by
  dsimp only [Course.receive]
  rcases handle_cases course.watcher event with ⟨⟨failure, refused⟩, -⟩ |
    ⟨files, brings, ⟨-, passed⟩ | ⟨some, -⟩⟩
  · rw [refused]
  · rw [passed]
  · obtain ⟨file, member⟩ := List.exists_mem_of_ne_nil files some
    exact absurd ((brings file).mp member) (none file)

/-- The files that an event brings are gathered. -/
theorem receive_event_of_some (callback : List (List String) → CallbackEnd) {file : String}
    (some : Brings course.watcher.root course.watcher.filter event file) :
    ∃ files, (∀ file, file ∈ files ↔
        Brings course.watcher.root course.watcher.filter event file) ∧
      (course.receive callback (.event event)).course =
        { course with watcher := course.watcher.gather files } := by
  dsimp only [Course.receive]
  rcases handle_cases course.watcher event with ⟨-, path, touches, none⟩ |
    ⟨files, brings, ⟨rfl, -⟩ | ⟨-, notices, gathered⟩⟩
  · exact absurd (some.1 path touches) none
  · cases (brings file).mpr some
  · refine ⟨files, brings, ?_⟩
    rw [gathered]

/-- A flush without collected files does nothing. -/
theorem receive_flush_of_nil (empty : course.watcher.pending = []) :
    course.receive callback .flush = ⟨course, [], none⟩ := by
  unfold Course.receive flush
  rw [empty]
  rfl

/-- A flush hands the collected files on, whatever becomes of the callback. What is no error is
raised then. -/
theorem receive_flush_of_ne (filled : course.watcher.pending ≠ []) :
    course.receive callback .flush =
      ⟨⟨{ course.watcher with pending := [], timer := false },
          course.batches ++ [course.watcher.pending]⟩,
        batchNotices course.watcher.pending (callback (course.batches ++ [course.watcher.pending])),
        if callback (course.batches ++ [course.watcher.pending]) = .exited then some .exit
        else none⟩ := by
  have unempty : ¬ course.watcher.pending.isEmpty = true := by rwa [List.isEmpty_iff]
  unfold Course.receive flush
  rw [if_neg unempty]

end Receive

/-- Signals cut at the flushes that hand a batch on: the stretches before each of these, and
what came after the last. A flush inside a stretch comes before any file is brought. -/
structure Cut (root : Path) (filter : SourceFilter) (signals : List Signal)
    (stretches : List (List Signal)) (rest : List Signal) : Prop where
  whole : signals = (stretches.flatMap fun stretch => stretch ++ [.flush]) ++ rest
  full : ∀ stretch ∈ stretches, ∃ file, Brought root filter stretch file
  idle : ∀ stretch ∈ rest :: stretches, ∀ earlier later,
    stretch = earlier ++ .flush :: later → ∀ file, ¬ Brought root filter earlier file

/-- An event has brought a file, and no stop came after it. -/
def IsRoused (root : Path) (filter : SourceFilter) (signals : List Signal) : Prop :=
  ∃ earlier event later file, signals = earlier ++ .event event :: later ∧
    Brings root filter event file ∧ .stop ∉ later

section Cut

variable {root : Path} {filter : SourceFilter} {signals rest : List Signal}
variable {stretches : List (List Signal)} {signal : Signal} {file : String}

/-- What stands in a list with one more item stands at its end or stood in it before. -/
private theorem eq_append_cons_of_concat {mark : Signal} {earlier later : List Signal}
    (same : signals ++ [signal] = earlier ++ mark :: later) :
    (earlier = signals ∧ mark = signal ∧ later = []) ∨
      ∃ before, later = before ++ [signal] ∧ signals = earlier ++ mark :: before := by
  rcases later.eq_nil_or_concat with rfl | ⟨before, last, rfl⟩
  · obtain ⟨front, back⟩ := List.append_inj' same rfl
    exact Or.inl ⟨front.symm, (List.cons.inj back).1.symm, rfl⟩
  · rw [List.concat_eq_append, ← List.cons_append, ← List.append_assoc] at same
    obtain ⟨front, back⟩ := List.append_inj' same rfl
    exact Or.inr ⟨before, by rw [List.concat_eq_append, back], front⟩

private theorem brought_concat_iff :
    Brought root filter (signals ++ [signal]) file ↔
      Brought root filter signals file ∨ Brought root filter [signal] file := by
  simp only [Brought, List.mem_append, or_and_right, exists_or]

private theorem brought_event_iff {event : WatchEvent} :
    Brought root filter [.event event] file ↔ Brings root filter event file := by
  simp only [Brought, List.mem_singleton, Signal.event.injEq, exists_eq_left]

private theorem not_brought_of_ne (other : ∀ event, signal ≠ .event event) :
    ¬ Brought root filter [signal] file := by
  rintro ⟨event, member, -⟩
  exact other event (List.mem_singleton.mp member).symm

/-- A signal that hands nothing on goes to the rest. -/
theorem Cut.extend (cut : Cut root filter signals stretches rest)
    (unhanded : signal = .flush → ∀ file, ¬ Brought root filter rest file) :
    Cut root filter (signals ++ [signal]) stretches (rest ++ [signal]) where
  whole := by rw [cut.whole, List.append_assoc]
  full := cut.full
  idle := by
    intro stretch member earlier later split
    rcases List.mem_cons.mp member with rfl | old
    · rcases eq_append_cons_of_concat split with ⟨rfl, flushed, -⟩ | ⟨before, -, inside⟩
      · exact unhanded flushed.symm
      · exact cut.idle rest List.mem_cons_self earlier before inside
    · exact cut.idle stretch (List.mem_cons_of_mem rest old) earlier later split

/-- A flush that hands a batch on closes a stretch. -/
theorem Cut.close (cut : Cut root filter signals stretches rest)
    (handed : ∃ file, Brought root filter rest file) :
    Cut root filter (signals ++ [.flush]) (stretches ++ [rest]) [] where
  whole := by simp [cut.whole]
  full := by
    intro stretch member
    rcases List.mem_append.mp member with old | new
    · exact cut.full stretch old
    · exact List.mem_singleton.mp new ▸ handed
  idle := by
    intro stretch member
    have known : stretch = [] ∨ stretch ∈ rest :: stretches := by
      simpa only [List.mem_cons, List.mem_append, List.not_mem_nil, or_comm, false_or] using member
    rcases known with rfl | old
    · simp only [List.nil_eq, List.append_eq_nil_iff, reduceCtorEq, and_false, IsEmpty.forall_iff,
        implies_true]
    · exact cut.idle stretch old

/-- A signal that brings nothing and is no stop leaves it at that. -/
private theorem isRoused_concat_iff (bringsNone : ∀ file, ¬ Brought root filter [signal] file)
    (going : signal ≠ .stop) :
    IsRoused root filter (signals ++ [signal]) ↔ IsRoused root filter signals := by
  constructor
  · rintro ⟨earlier, event, later, file, whole, brings, unstopped⟩
    rcases eq_append_cons_of_concat whole with ⟨-, rfl, -⟩ | ⟨before, rfl, inside⟩
    · exact absurd (brought_event_iff.mpr brings) (bringsNone file)
    · exact ⟨earlier, event, before, file, inside, brings,
        fun stopped => unstopped (List.mem_append_left [signal] stopped)⟩
  · rintro ⟨earlier, event, later, file, rfl, brings, unstopped⟩
    refine ⟨earlier, event, later ++ [signal], file, by simp, brings, ?_⟩
    simpa only [List.mem_append, List.mem_cons, going.symm, List.not_mem_nil, or_self, or_false]
      using unstopped

private theorem not_isRoused_concat_stop : ¬ IsRoused root filter (signals ++ [.stop]) := by
  rintro ⟨earlier, event, later, file, whole, -, unstopped⟩
  rcases eq_append_cons_of_concat whole with ⟨-, other, -⟩ | ⟨before, rfl, -⟩
  · cases other
  · exact unstopped (List.mem_append_right before List.mem_cons_self)

end Cut

/-- What signals tell of the course that they lead to: every batch holds what its stretch
brought, the collected files are those that the rest brought, and the timer is set exactly if
files are collected and no stop came after the last of them. -/
structure Accounts (root : Path) (filter : SourceFilter) (signals : List Signal)
    (course : Course) : Prop where
  root_eq : course.watcher.root = root
  filter_eq : course.watcher.filter = filter
  cut : ∃ stretches rest, Cut root filter signals stretches rest ∧
    List.Forall₂ (fun batch stretch => Holds batch (Brought root filter stretch))
      course.batches stretches ∧
    Holds course.watcher.pending (Brought root filter rest)
  timer : course.watcher.timer = true ↔
    course.watcher.pending ≠ [] ∧ IsRoused root filter signals

section Course

variable {callback : List (List String) → CallbackEnd} {root : Path} {filter : SourceFilter}
variable {signals : List Signal} {course : Course}

/-- A signal that changes nothing and brings nothing is accounted for. -/
theorem Accounts.pass (accounts : Accounts root filter signals course) {signal : Signal}
    (bringsNone : ∀ file, ¬ Brought root filter [signal] file) (going : signal ≠ .stop)
    (unhanded : signal = .flush → course.watcher.pending = []) :
    Accounts root filter (signals ++ [signal]) course := by
  obtain ⟨stretches, rest, cut, batches, pending⟩ := accounts.cut
  refine ⟨accounts.root_eq, accounts.filter_eq, ⟨stretches, rest ++ [signal], ?_, batches, ?_⟩, ?_⟩
  · exact cut.extend fun flushed => pending.eq_nil_iff.mp (unhanded flushed)
  · refine ⟨pending.1, fun file => ?_⟩
    rw [pending.2, brought_concat_iff, or_iff_left (bringsNone file)]
  · rw [isRoused_concat_iff bringsNone going]
    exact accounts.timer

/-- What an event brings goes to the collected files. -/
theorem Accounts.event (accounts : Accounts root filter signals course) (event : WatchEvent) :
    Accounts root filter (signals ++ [.event event])
      (course.receive callback (.event event)).course := by
  by_cases some : ∃ file, Brings course.watcher.root course.watcher.filter event file
  · obtain ⟨file, some⟩ := some
    obtain ⟨files, brings, gathered⟩ := receive_event_of_some callback some
    rw [gathered]
    rw [accounts.root_eq, accounts.filter_eq] at brings some
    obtain ⟨stretches, rest, cut, batches, pending⟩ := accounts.cut
    have collected : Holds (course.watcher.gather files).pending
        (Brought root filter (rest ++ [.event event])) := by
      refine ⟨nodup_asSet _, fun file => ?_⟩
      rw [gather, mem_asSet, List.mem_append, mem_asSet, pending.2, brings, brought_concat_iff,
        brought_event_iff]
    have unhanded : Signal.event event = .flush → ∀ file, ¬ Brought root filter rest file :=
      fun flushed => nomatch flushed
    refine ⟨accounts.root_eq, accounts.filter_eq, ⟨stretches, rest ++ [.event event],
      cut.extend unhanded, batches, collected⟩, iff_of_true rfl ⟨?_, ?_⟩⟩
    · apply List.ne_nil_of_mem ((collected.2 file).mpr _)
      exact brought_concat_iff.mpr (Or.inr (brought_event_iff.mpr some))
    · exact ⟨signals, event, [], file, rfl, some, List.not_mem_nil⟩
  · have none := not_exists.mp some
    rw [receive_event_of_none none]
    rw [accounts.root_eq, accounts.filter_eq] at none
    exact accounts.pass (fun file brought => none file (brought_event_iff.mp brought))
      (fun stopped => nomatch stopped) fun flushed => nomatch flushed

/-- A flush hands the collected files on as the batch of a stretch. -/
theorem Accounts.flush (accounts : Accounts root filter signals course) :
    Accounts root filter (signals ++ [.flush]) (course.receive callback .flush).course := by
  have other : ∀ event, Signal.flush ≠ .event event := fun event same => nomatch same
  by_cases empty : course.watcher.pending = []
  · rw [receive_flush_of_nil empty]
    exact accounts.pass (fun file => not_brought_of_ne other) (fun same => nomatch same)
      fun _ => empty
  · rw [receive_flush_of_ne empty]
    obtain ⟨stretches, rest, cut, batches, pending⟩ := accounts.cut
    refine ⟨accounts.root_eq, accounts.filter_eq, ⟨stretches ++ [rest], [], ?_, ?_, ?_⟩, ?_⟩
    · rw [pending.eq_nil_iff, not_forall_not] at empty
      exact cut.close empty
    · exact List.rel_append batches (.cons pending .nil)
    · exact ⟨List.nodup_nil, fun _ =>
        iff_of_false List.not_mem_nil fun ⟨_, member, _⟩ => nomatch member⟩
    · exact iff_of_false Bool.false_ne_true fun set => set.1 rfl

/-- A stop takes the timer off and leaves the collected files. -/
theorem Accounts.stop (accounts : Accounts root filter signals course) :
    Accounts root filter (signals ++ [.stop]) (course.receive callback .stop).course := by
  have other : ∀ event, Signal.stop ≠ .event event := fun event same => nomatch same
  obtain ⟨stretches, rest, cut, batches, pending⟩ := accounts.cut
  have unhanded : Signal.stop = .flush → ∀ file, ¬ Brought root filter rest file :=
    fun flushed => nomatch flushed
  refine ⟨accounts.root_eq, accounts.filter_eq, ⟨stretches, rest ++ [.stop],
    cut.extend unhanded, batches, pending.1, fun file => ?_⟩, ?_⟩
  · rw [brought_concat_iff, or_iff_left (not_brought_of_ne other)]
    exact pending.2 file
  · exact iff_of_false Bool.false_ne_true fun roused => not_isRoused_concat_stop roused.2

/-- One more signal is accounted for. -/
theorem Accounts.receive (accounts : Accounts root filter signals course) (signal : Signal) :
    Accounts root filter (signals ++ [signal]) (course.receive callback signal).course := by
  cases signal with
  | event event => exact accounts.event event
  | flush => exact accounts.flush
  | stop => exact accounts.stop

end Course

end ModuleAtlas.Watcher
