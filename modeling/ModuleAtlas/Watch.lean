import ModuleAtlas.Notice
import ModuleAtlas.SourceFilter

/-! # Watching for changes

A watcher collects the source files that events touch. Every accepted event sets
its timer anew; a flush hands the collected files on as one batch.
-/

namespace ModuleAtlas

/-- What happened to a file. -/
inductive Change where
  | created
  | modified
  | deleted
  | moved
  | opened
  | closed
  deriving DecidableEq, Repr

/-- Whether a change can alter the imports of a file. -/
def Change.altersContent : Change → Bool
  | .created | .modified | .deleted | .moved => true
  | .opened | .closed => false

/-- A path as an event gives it: a text, or bytes that spell one. -/
inductive EventPath where
  | text (path : String)
  | bytes (path : List UInt8)
  deriving DecidableEq, Repr

/-- Something that happened in the file tree. -/
structure WatchEvent where
  change : Change
  path : EventPath
  destination : EventPath := .text ""
  isDirectory : Bool := false
  deriving DecidableEq, Repr

/-- A watcher: the files it accepts, those collected since the last batch, in
order, and whether its timer is set. -/
structure Watcher where
  root : Path
  filter : SourceFilter
  pending : List String
  timer : Bool

namespace Watcher

/-- A watcher that has seen nothing. -/
def start (root : Path) (filter : SourceFilter) : Watcher := ⟨root, filter, [], false⟩

/-- The text of a path. -/
def textOf : EventPath → Except Failure String
  | .text path => .ok path
  | .bytes path => (Text.Utf8.decode path).mapError .undecodable

/-- The path of a watched source file below the root. -/
def accepted? (watcher : Watcher) (path : String) : Option String := do
  let parts ← (Path.ofString path).relativeTo? watcher.root
  let file := Path.relativeText parts
  if watcher.filter.ignores file || !watcher.filter.supports file then none else some file

/-- The paths that an event touches. -/
def touched (event : WatchEvent) : List EventPath :=
  if event.isDirectory || !event.change.altersContent then []
  else if event.change = .moved then [event.path, event.destination]
  else [event.path]

/-- Texts in order and without repetition. -/
def asSet (texts : List String) : List String := Text.sortTexts texts.eraseDups

/-- Takes in an event. A path whose bytes spell no text leaves the watcher as it
is. -/
def handle (watcher : Watcher) (event : WatchEvent) :
    Except Failure (Watcher × List Notice) := do
  let paths ← (touched event).mapM textOf
  let changed := asSet (paths.filterMap watcher.accepted?)
  if changed.isEmpty then .ok (watcher, [])
  else
    let pending := asSet (watcher.pending ++ changed)
    .ok ({ watcher with pending, timer := true }, [.queued changed pending.length])

/-- Hands on the collected files, if there are any: the watcher afterwards and
the batch. -/
def flush (watcher : Watcher) : Watcher × Option (List String) :=
  if watcher.pending.isEmpty then (watcher, none)
  else ({ watcher with pending := [], timer := false }, some watcher.pending)

/-- Takes the timer off; the collected files stay. -/
def stop (watcher : Watcher) : Watcher := { watcher with timer := false }

/-- How the callback that is handed a batch ends: it returns, it fails with an error, or it is
left by what is no error, as when the program is asked to end. -/
inductive CallbackEnd where
  | returned
  | failed (message : String)
  | exited
  deriving DecidableEq, Repr

/-- What is reported of a batch, given how its callback ends. -/
def batchNotices (batch : List String) : CallbackEnd → List Notice
  | .failed message => [.flushing batch.length, .callbackFailed message]
  | .returned | .exited => [.flushing batch.length]

/-- What a watcher is given. -/
inductive Signal where
  | event (event : WatchEvent)
  | flush
  | stop

/-- A watcher with the batches that it has handed on, the earliest first. -/
structure Course where
  watcher : Watcher
  batches : List (List String)

/-- What the giver of a signal sees raised. -/
inductive Raised where
  | failure (failure : Failure)
  | exit
  deriving DecidableEq, Repr

/-- What a signal leads to: the course after it, what is reported, and what is raised. -/
structure Reception where
  course : Course
  notices : List Notice
  raised : Option Raised

/-- Takes in a signal. `callback` tells how the callback ends when it is handed the last of some
batches. Its errors are reported; what is no error is passed on. -/
def Course.receive (callback : List (List String) → CallbackEnd) (course : Course) :
    Signal → Reception
  | .event event =>
      match course.watcher.handle event with
      | .ok (watcher, notices) => ⟨{ course with watcher }, notices, none⟩
      | .error failure => ⟨course, [], some (.failure failure)⟩
  | .flush =>
      match course.watcher.flush with
      | (watcher, none) => ⟨{ course with watcher }, [], none⟩
      | (watcher, some batch) =>
          let batches := course.batches ++ [batch]
          let ending := callback batches
          ⟨⟨watcher, batches⟩, batchNotices batch ending,
            if ending = .exited then some .exit else none⟩
  | .stop => ⟨{ course with watcher := course.watcher.stop }, [], none⟩

/-- The course of a new watcher that is given some signals. -/
def course (callback : List (List String) → CallbackEnd) (root : Path) (filter : SourceFilter)
    (signals : List Signal) : Course :=
  signals.foldl (fun course signal => (course.receive callback signal).course)
    ⟨start root filter, []⟩

end Watcher

end ModuleAtlas
