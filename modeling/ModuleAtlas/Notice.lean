import ModuleAtlas.Failure

/-! # Notices

What an operation reports while it works, as data. The level and the wording of
every notice are decided here.
-/

namespace ModuleAtlas

/-- How important a notice is. -/
inductive Level where
  | debug
  | info
  | warning
  | error
  deriving DecidableEq, Repr

/-- The rank of a level among the others. -/
def Level.rank : Level → Nat
  | .debug => 0
  | .info => 1
  | .warning => 2
  | .error => 3

/-- The name of a level. -/
def Level.name : Level → String
  | .debug => "DEBUG"
  | .info => "INFO"
  | .warning => "WARNING"
  | .error => "ERROR"

/-- Something worth reporting. -/
inductive Notice where
  | importsFound (count : Nat) (path : String)
  | missingRoot (root : String)
  | rootNotDirectory (root : String)
  | unreadableDirectory (path : String) (fault : Fault)
  | excludedDirectory (path : String)
  | filesFound (count : Nat) (root : String)
  | lookingIn (root : String)
  | searchedExtensions (extensions : List String)
  | excludedFragments (fragments : List String)
  | depthLimited (limit : String)
  | startMissing (path : String)
  | startOutside (root path : String)
  | startingFrom (file : String)
  | processingAll
  | graphBuilt (scanned nodes edges externalEdges : Nat)
  | beyondLimit (file : String) (depth : Nat)
  | unreadableFile (file : String) (failure : Failure)
  | processing (count : Nat) (file : String) (depth : Nat)
  | resolved (reference path : String)
  | moduleDropped (reference : String)
  | externalDependency (path : String)
  | unresolved (reference : String)
  | duplicateDependency (target : String)
  | cycleFound (cycle : List String)
  | cyclesDetected (count : Nat)
  | modeSize (mode : String) (count : Nat)
  | modesAnalyzed (root : String)
  | reportSaved (path : String)
  | analyzingFile (path : String)
  | scanningDirectory (root : String)
  | detectingCycles
  | analyzingModes
  | totalFiles (count : Nat)
  | totalDependencies (count : Nat)
  | circularFiles (count : Nat)
  | totalCycles (count : Nat)
  | cyclesListed
  | cycleListed (number : Nat) (cycle : List String)
  | cyclesOmitted (count : Nat)
  | filesChanged (files : List String)
  | rescanFailed (failure : Failure)
  | backgroundStarted
  | backgroundCompleted
  | backgroundFailed (failure : Failure)
  | configurationFailed (failure : Failure)
  | serverStarting (path : String)
  | watcherStarting
  | watcherStarted (root : String)
  | serverReady
  | rescanning (overrides : String) (reset : String)
  | queued (files : List String) (pending : Nat)
  | flushing (count : Nat)
  | callbackFailed (message : String)
  deriving DecidableEq, Repr

namespace Notice

/-- The level of a notice. -/
def level : Notice → Level
  | .importsFound _ _ | .excludedDirectory _ | .beyondLimit _ _ | .processing _ _ _
  | .resolved _ _ | .moduleDropped _ | .externalDependency _ | .unresolved _
  | .duplicateDependency _ | .cycleFound _ | .modesAnalyzed _ | .queued _ _ => .debug
  | .unreadableDirectory _ _ | .unreadableFile _ _ | .cyclesListed | .cycleListed _ _
  | .cyclesOmitted _ => .warning
  | .missingRoot _ | .rootNotDirectory _ | .startMissing _ | .startOutside _ _ | .rescanFailed _
  | .backgroundFailed _ | .configurationFailed _ | .callbackFailed _ => .error
  | _ => .info

/-- The steps of a cycle on one line. -/
def cycleText (cycle : List String) : String := Text.join " -> " cycle

/-- The wording of a notice. -/
def message : Notice → String
  | .importsFound count path => "Found " ++ toString count ++ " imports in " ++ path
  | .missingRoot root => "Path '" ++ root ++ "' does not exist."
  | .rootNotDirectory root => "'" ++ root ++ "' is not a directory."
  | .unreadableDirectory path fault => "Cannot read directory " ++ path ++ ": " ++ fault.text
  | .excludedDirectory path => "Skipping excluded directory: " ++ path
  | .filesFound count root => "Found " ++ toString count ++ " source files in " ++ root
  | .lookingIn root => "Looking for files in: " ++ root
  | .searchedExtensions extensions =>
      "Searching for file extensions: " ++ Text.join ", " extensions
  | .excludedFragments fragments => "Excluding directories: " ++ Text.join ", " fragments
  | .depthLimited limit => "Maximum dependency depth: " ++ limit
  | .startMissing path => "Start file not found: " ++ path
  | .startOutside root path => "Start file is outside " ++ root ++ ": " ++ path
  | .startingFrom file => "Starting dependency analysis from: " ++ file
  | .processingAll => "Processing all files in the project..."
  | .graphBuilt scanned nodes edges externalEdges =>
      "Graph built: " ++ toString scanned ++ " files scanned, " ++ toString nodes ++ " nodes, " ++
        toString edges ++ " dependencies (" ++ toString externalEdges ++ " external)"
  | .beyondLimit file depth =>
      "Depth limit reached at " ++ file ++ " (depth: " ++ toString depth ++ ")"
  | .unreadableFile file failure => "Skipping unreadable file " ++ file ++ ": " ++ failure.message
  | .processing count file depth =>
      "Processing " ++ toString count ++ " imports for " ++ file ++ " (depth: " ++
        toString depth ++ ")"
  | .resolved reference path => "  " ++ reference ++ " -> " ++ path
  | .moduleDropped reference => "  Dropping unresolved module: " ++ reference
  | .externalDependency path => "  External dependency: " ++ path
  | .unresolved reference => "  Could not resolve: " ++ reference
  | .duplicateDependency target => "  Skipping duplicate dependency: " ++ target
  | .cycleFound cycle => "Cycle found: " ++ cycleText cycle
  | .cyclesDetected count => "Detected " ++ toString count ++ " circular dependencies"
  | .modeSize mode count => "Deployment mode " ++ mode ++ ": " ++ toString count ++ " files"
  | .modesAnalyzed root => "Deployment modes analyzed for " ++ root
  | .reportSaved path => "Dependency graph saved to " ++ path
  | .analyzingFile path => "Analyzing single file: " ++ path
  | .scanningDirectory root => "Scanning dependencies in directory: " ++ root
  | .detectingCycles => "Detecting circular dependencies..."
  | .analyzingModes => "Analyzing deployment modes..."
  | .totalFiles count => "Total files: " ++ toString count
  | .totalDependencies count => "Total dependencies: " ++ toString count
  | .circularFiles count => "Files with circular dependencies: " ++ toString count
  | .totalCycles count => "Total cycles: " ++ toString count
  | .cyclesListed => "Circular dependencies detected:"
  | .cycleListed number cycle => "  Cycle " ++ toString number ++ ": " ++ cycleText cycle
  | .cyclesOmitted count =>
      "  ... and " ++ toString count ++ " more cycles (see the JSON output for details)"
  | .filesChanged files => "Changed: " ++ Text.join ", " files
  | .rescanFailed failure => "Rescan after file changes failed: " ++ failure.message
  | .backgroundStarted => "Starting background scan..."
  | .backgroundCompleted => "Background scan completed successfully"
  | .backgroundFailed failure => "Background scan failed: " ++ failure.message
  | .configurationFailed failure => "Failed to load configuration: " ++ failure.message
  | .serverStarting path => "Starting Dependency Scanner for: " ++ path
  | .watcherStarting => "Starting file watcher..."
  | .watcherStarted root => "FileWatcher started for " ++ root
  | .serverReady => "Dependency Scanner ready (scanning in background)"
  | .rescanning overrides reset =>
      "Rescanning with overrides: " ++ overrides ++ " (reset: " ++ reset ++ ")"
  | .queued files pending =>
      "Queued " ++ Text.join ", " files ++ ", pending: " ++ toString pending
  | .flushing count => "Processing " ++ toString count ++ " file changes"
  | .callbackFailed text => "Error processing file changes: " ++ text

/-- Whether a notice is at least as important as a level. -/
def atLeast (threshold : Level) (notice : Notice) : Bool :=
  decide (threshold.rank ≤ notice.level.rank)

end Notice

end ModuleAtlas
