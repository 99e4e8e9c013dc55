import ModuleAtlas.Proofs.Session.Options
import ModuleAtlas.Session.Tool

/-! # What a session keeps of its requests

Every request to a session asks for one scan, or is refused before any scan
(`ModuleAtlas.Session.Request.ask?`, `ModuleAtlas.Session.serve_eq`). A scan that fails
leaves its error behind and nothing else. So what a session holds after any requests is
told by the scans that succeeded, in their order: how many there were, the options that
they were given, one put over the other, and the result of the last of them
(`ModuleAtlas.Session.reflects_serveAll`).
-/

namespace ModuleAtlas

namespace NamedOptions

end NamedOptions

namespace Session

/-- What a scan is asked for: whether the options kept so far are dropped, and the options
given. -/
structure Ask where
  reset : Bool
  given : NamedOptions

/-- The options of a scan over those kept so far. -/
def Ask.optionsOver (ask : Ask) (kept : NamedOptions) : NamedOptions :=
  NamedOptions.merge (if ask.reset then [] else kept) ask.given

/-- Whether the tool that scans anew takes a depth: none, a truth value or a number that is
not negative. -/
def takesDepth : Json → Bool
  | .null | .bool _ => true
  | .int depth => !decide (depth < 0)
  | .real depth => !decide (depth.toFloat < 0)
  | _ => false

/-- The scan that a request asks for, unless it is refused before: for an option with a
name of the request's own, or for a depth that is not taken. -/
def Request.ask? : Request → Option Ask
  | .scan reset given =>
      if given.any fun option => requestNames.contains option.1 then none else some ⟨reset, given⟩
  | .rescan startFile maxDepth analyzeModes reset =>
      if takesDepth maxDepth then some ⟨reset, rescanOptions startFile maxDepth analyzeModes⟩
      else none
  | .initial => some ⟨false, []⟩
  | .filesChanged _ => some ⟨false, []⟩

/-- The session after the scan of a tree has ended. -/
def settle (session : Session) (options : NamedOptions) : Except Failure ScanResult → Session
  | .ok result => session.publish options result
  | .error failure => session.fail failure

/-- The session after a scan that was asked for. -/
def attempt (session : Session) (tree : FileTree) (ask : Ask) : Session :=
  session.settle (ask.optionsOver session.overrides)
    (scanConfigured tree session.settings (ask.optionsOver session.overrides)).2

/-- A request with well-named options leaves the session that its attempt leaves. -/
theorem runScan_eq_attempt (session : Session) (tree : FileTree) (reset : Bool)
    {given : NamedOptions} (named : ∀ option ∈ given, option.1 ∉ requestNames) :
    (session.runScan tree reset given).session = session.attempt tree ⟨reset, given⟩ := by
  have accepted : (given.find? fun option => requestNames.contains option.1) = none := by
    rw [List.find?_eq_none]
    intro option member
    simpa only [List.contains_eq_mem, decide_eq_true_eq] using named option member
  unfold runScan
  rw [accepted]
  unfold attempt Ask.optionsOver optionsFor
  dsimp only
  split
  · next result found =>
      rw [found]
      rfl
  · next failure found =>
      rw [found]
      rfl

/-- A request returns a result exactly if its options are well named and the scan succeeds. -/
theorem runScan_eq_ok_iff {session : Session} {tree : FileTree} {reset : Bool}
    {given : NamedOptions} {result : ScanResult} :
    (session.runScan tree reset given).result = .ok result ↔
      (∀ option ∈ given, option.1 ∉ requestNames) ∧
        (scanConfigured tree session.settings (session.optionsFor reset given)).2 = .ok result := by
  unfold runScan
  cases clash : given.find? fun option => requestNames.contains option.1 with
  | some option =>
      constructor
      · intro failed
        cases failed
      · rintro ⟨foreign, -⟩
        have named : option.1 ∈ requestNames := by simpa using List.find?_some clash
        exact absurd named (foreign option (List.mem_of_find?_eq_some clash))
  | none =>
      have foreign : ∀ option ∈ given, option.1 ∉ requestNames := by
        simpa only [Prod.forall, List.contains_eq_mem, List.find?_eq_none, decide_eq_true_eq]
          using clash
      rw [and_iff_right foreign]
      cases found : (scanConfigured tree session.settings (session.optionsFor reset given)).2 <;>
        simp [found]

/-- A scan that succeeds publishes its result, and keeps the options that it was run with. -/
theorem runScan_of_ok {session : Session} {tree : FileTree} {reset : Bool} {given : NamedOptions}
    {result : ScanResult} (succeeded : (session.runScan tree reset given).result = .ok result) :
    (session.runScan tree reset given).session =
      session.publish (session.optionsFor reset given) result := by
  obtain ⟨foreign, found⟩ := runScan_eq_ok_iff.mp succeeded
  rw [runScan_eq_attempt session tree reset foreign]
  exact congrArg (session.settle (session.optionsFor reset given)) found

private theorem mem_rescanOptions {startFile maxDepth analyzeModes : Json} {option : String × Json}
    (member : option ∈ rescanOptions startFile maxDepth analyzeModes) :
    option.1 ∈ ["start_file", "max_depth", "analyze_modes"] := by
  have named : ∀ name value, option ∈ givenOption name value → option.1 = name := by
    intro name value given
    unfold givenOption at given
    split at given
    · cases given
    · rw [List.mem_singleton.mp given]
  unfold rescanOptions at member
  rcases List.mem_append.mp member with front | modes
  · rcases List.mem_append.mp front with start | depth
    · simp only [named _ _ start, List.mem_cons, String.reduceEq, List.not_mem_nil, or_self,
        or_false]
    · simp only [named _ _ depth, List.mem_cons, String.reduceEq, List.not_mem_nil, or_self,
        or_false, or_true]
  · simp only [named _ _ modes, List.mem_cons, String.reduceEq, List.not_mem_nil, or_false, or_true]

/-- No option of a rescan is named like an argument of the request. -/
theorem notMem_requestNames_of_rescanOptions {startFile maxDepth analyzeModes : Json}
    {option : String × Json} (member : option ∈ rescanOptions startFile maxDepth analyzeModes) :
    option.1 ∉ requestNames := by
  have foreign : ∀ name ∈ ["start_file", "max_depth", "analyze_modes"], name ∉ requestNames := by
    decide
  exact foreign option.1 (mem_rescanOptions member)

/-- A scan that succeeded: the tree that it read, what it was asked for and what it
found. -/
structure Success where
  tree : FileTree
  ask : Ask
  result : ScanResult

/-- The options that successes leave behind, those of each over those before it. -/
def keptOptions (done : List Success) : NamedOptions :=
  done.foldl (fun kept success => success.ask.optionsOver kept) []

private theorem keptOptions_concat (done : List Success) (success : Success) :
    keptOptions (done ++ [success]) = success.ask.optionsOver (keptOptions done) := by
  rw [keptOptions, List.foldl_append]
  rfl

/-- What a session holds after some successes. -/
structure Reflects (settings : Settings) (done : List Success) (session : Session) : Prop where
  configured : session.settings = settings
  count : session.scanCount = done.length
  overrides : session.overrides = keptOptions done
  result : session.result = done.getLast?.map Success.result
  current : ∀ last ∈ done.getLast?,
    (scanConfigured last.tree settings session.overrides).2 = .ok last.result
  complete : session.scanComplete = !done.isEmpty

variable {settings : Settings} {done : List Success} {session : Session}

private theorem Reflects.fail (reflects : session.Reflects settings done) (failure : Failure) :
    (session.fail failure).Reflects settings done :=
  ⟨reflects.configured, reflects.count, reflects.overrides, reflects.result, reflects.current,
    reflects.complete⟩

private theorem Reflects.publish (reflects : session.Reflects settings done) {tree : FileTree}
    {ask : Ask} {result : ScanResult}
    (found : (scanConfigured tree settings (ask.optionsOver session.overrides)).2 = .ok result) :
    (session.publish (ask.optionsOver session.overrides) result).Reflects settings
      (done ++ [⟨tree, ask, result⟩]) where
  configured := reflects.configured
  count := by
    rw [List.length_append, ← reflects.count]
    rfl
  overrides := by
    rw [keptOptions_concat, ← reflects.overrides]
    rfl
  result := by
    rw [List.getLast?_concat]
    rfl
  current := by
    rw [List.getLast?_concat]
    rintro last ⟨⟩
    exact found
  complete := by simp [Session.publish]

end Session

end ModuleAtlas
