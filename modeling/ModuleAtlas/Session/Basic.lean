import ModuleAtlas.Session.Options

/-! # Sessions

A session holds the settings, the options that replace them and the latest
result. Options given to a scan that succeeds are kept for later scans; a scan
that fails leaves everything but the error as it was.
-/

namespace ModuleAtlas

/-- Where a session stands. -/
inductive Phase where
  | starting
  | scanning
  | error
  | complete
  deriving DecidableEq, Repr

/-- The name of a phase. -/
def Phase.name : Phase → String
  | .starting => "starting"
  | .scanning => "scanning"
  | .error => "error"
  | .complete => "complete"

/-- The state that all requests share. -/
structure Session where
  settings : Settings
  overrides : NamedOptions
  result : Option ScanResult
  watcherActive : Bool
  scanComplete : Bool
  scanError : Option String
  phase : Phase
  scanCount : Nat

namespace Session

/-- A session before its first scan. -/
def create (settings : Settings) : Session where
  settings
  overrides := []
  result := none
  watcherActive := false
  scanComplete := false
  scanError := none
  phase := .starting
  scanCount := 0

/-- The options of a scan: those kept, unless they are dropped, under those
given. -/
def optionsFor (session : Session) (reset : Bool) (given : NamedOptions) : NamedOptions :=
  NamedOptions.merge (if reset then [] else session.overrides) given

/-- The session while a scan runs. -/
def begin (session : Session) : Session := { session with phase := .scanning }

/-- The session after a scan that succeeded. -/
def publish (session : Session) (options : NamedOptions) (result : ScanResult) : Session :=
  { session with
    overrides := options
    result := some result
    scanComplete := true
    scanError := none
    phase := .complete
    scanCount := session.scanCount + 1 }

/-- The session after a scan that failed. -/
def fail (session : Session) (failure : Failure) : Session :=
  { session with phase := .error, scanError := some failure.message }

/-- The session after an operation, what was reported, and the outcome. -/
structure Outcome (α : Type) where
  session : Session
  notices : List Notice
  result : Except Failure α

/-- The names that belong to the request itself and not to the scan. -/
def requestNames : List String := ["context", "reset"]

/-- Scans the configured project and publishes the result. -/
def runScan (session : Session) (tree : FileTree) (reset : Bool) (given : NamedOptions) :
    Outcome ScanResult :=
  match given.find? fun option => requestNames.contains option.1 with
  | some option => ⟨session, [], .error (.repeatedOption "run_scan" option.1)⟩
  | none =>
      let options := session.optionsFor reset given
      let (notices, result) := scanConfigured tree session.settings options
      match result with
      | .ok result => ⟨session.begin.publish options result, notices, .ok result⟩
      | .error failure => ⟨session.begin.fail failure, notices, .error failure⟩

/-- The first scan, whose failure is only reported. -/
def initialScan (session : Session) (tree : FileTree) : Session × List Notice :=
  let outcome := session.runScan tree false []
  let closing := match outcome.result with
    | .ok _ => Notice.backgroundCompleted
    | .error failure => .backgroundFailed failure
  (outcome.session, .backgroundStarted :: outcome.notices ++ [closing])

/-- The scan after files have changed, whose failure is only reported. -/
def filesChanged (session : Session) (tree : FileTree) (changed : List String) :
    Session × List Notice :=
  let outcome := session.runScan tree false []
  let closing := match outcome.result with
    | .ok _ => []
    | .error failure => [Notice.rescanFailed failure]
  (outcome.session,
    .filesChanged (Text.sortTexts changed.eraseDups) :: outcome.notices ++ closing)

/-- The value of the modes of a result. -/
def modesValue (modes : ModeFiles) : Json := .obj (modes.map fun mode => (mode.1, .strs mode.2))

/-- The visible state of a session. -/
def state (session : Session) : Json :=
  .obj [ ("overrides", .obj session.overrides),
    ("scan_complete", .bool session.scanComplete),
    ("scan_error", (session.scanError.map .str).getD .null),
    ("scan_phase", .str session.phase.name),
    ("scan_count", .nat session.scanCount),
    ("scanned", (session.result.map fun result => .strs result.graph.scanned).getD .null),
    ("modes", ((session.result.bind (·.modes)).map modesValue).getD .null) ]

end Session

/-- Starts a session as the service does: settings from the environment, a first
scan, and a watcher if one is configured. -/
def startService (tree : FileTree) (environment : List (String × String)) :
    List Notice × Except Failure Session :=
  match Settings.load tree environment [] with
  | .error failure => ([.configurationFailed failure], .error failure)
  | .ok settings =>
      let (session, notices) := (Session.create settings).initialScan tree
      let root := (settings.rootDir tree).toString
      let watching := if settings.watch then [.watcherStarting, .watcherStarted root] else []
      (.serverStarting settings.scanPath.toString :: notices ++ watching ++ [.serverReady],
        .ok { session with watcherActive := settings.watch })

end ModuleAtlas
