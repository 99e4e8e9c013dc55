import ModuleAtlas.FileTree.Probe
import ModuleAtlas.Build.Verdict
import ModuleAtlas.Settings.Conversion
import ModuleAtlas.Settings.EnvFile
import ModuleAtlas.SourceFilter

/-! # Settings

Every setting is taken from the given options, from the environment, from the
environment file of the working directory, or from its default, in this order.
Variables are named by the setting behind a common start, in any case.
-/

namespace ModuleAtlas

/-- The settings of the scanner. -/
structure Settings where
  scanPath : Path
  filter : SourceFilter
  maxDepth : Option Int
  analyzeModes : Bool
  externalEdges : String
  outputFile : String
  logLevel : String
  watch : Bool
  debounceSeconds : Float

namespace Settings

/-- The directory that a scan starts from: the scan path, or the directory of
the file that it names. -/
def rootDir (settings : Settings) (tree : FileTree) : Path :=
  if tree.isRegular settings.scanPath.toString then settings.scanPath.parent
  else settings.scanPath

/-- The file that a scan starts from, if the scan path names one. -/
def startFile (settings : Settings) (tree : FileTree) : Option String :=
  if tree.isRegular settings.scanPath.toString then some settings.scanPath.name else none

/-- Where the report is written. -/
def outputPath (settings : Settings) (tree : FileTree) : Path :=
  (settings.rootDir tree).join settings.outputFile

/-- The start of every variable's name, in lower case. -/
def variableStart : String := "depscan_"

/-- The names of the levels that a log can have. -/
def logLevels : List String := ["DEBUG", "INFO", "WARNING", "ERROR", "CRITICAL"]

/-- The last value bound to a name, in any case. -/
def lastBound (name : String) (bindings : List EnvFile.Binding) : Option String :=
  ((bindings.reverse.find? fun binding => Text.lowerCase binding.1 = name).map Prod.snd).join

/-- The sources of settings, in the order in which they are asked. -/
structure Sources where
  options : List (String × Json)
  environment : List (String × String)
  file : List EnvFile.Binding

/-- The given value of a setting. -/
def Sources.value? (sources : Sources) (name : String) : Option Json :=
  let full := variableStart ++ name
  sources.options.lookup name <|>
    (lastBound full (sources.environment.map fun bound => (bound.1, some bound.2))).map .str <|>
    (lastBound full sources.file).map .str

/-- The outcome of reading one setting: its value or the problems with it. -/
abbrev Checked (α : Type) := Except (List Problem) α

/-- Reads a setting by a conversion. -/
def Sources.convert {α : Type} (sources : Sources) (name : String) (default : α)
    (conversion : Json → Except Complaint α) : Checked α :=
  match sources.value? name with
  | none => .ok default
  | some value => (conversion value).mapError fun complaint => [{ field := name, complaint }]

/-- The problems with the items of a list of texts. -/
def itemProblems (name : String) (items : List Json) : List Problem :=
  items.zipIdx.filterMap fun item =>
    match asText item.1 with
    | .ok _ => none
    | .error complaint => some { field := name, index := some item.2, complaint }

/-- Reads a list of texts, which may be spelled as one comma-separated text. -/
def Sources.texts (sources : Sources) (name : String) (default : List String) :
    Checked (List String) :=
  match (sources.value? name).map splitList with
  | none => .ok default
  | some (.arr items) =>
      match itemProblems name items with
      | [] => .ok (items.filterMap fun item => (asText item).toOption)
      | problems => .error problems
  | some _ => .error [{ field := name, complaint := .listType }]

/-- Reads the scan path, which must lead somewhere. The working directory needs
no check. -/
def Sources.scanPath (sources : Sources) (tree : FileTree) : Except Failure (Checked Path) :=
  match sources.value? "scan_path" with
  | none => .ok (.ok tree.workingPath)
  | some (.str s) => do
      let path := (Path.ofString s).toString
      let complaint := Complaint.value ("Scan path does not exist: " ++ path)
      if ← tree.exists? path then
        match tree.locate true path with
        | .ok location => .ok (.ok (Path.ofString (Path.spell .slash location)))
        | .error fault => .error (.file fault path)
      else .ok (.error [{ field := "scan_path", complaint }])
  | some value => .error (.noAttribute value.kind "exists")

/-- Reads the log level, in any case. -/
def Sources.logLevel (sources : Sources) : Except Failure (Checked String) :=
  match sources.value? "log_level" with
  | none => .ok (.ok "INFO")
  | some (.str s) =>
      let level := Text.upperCase s
      let complaint := Complaint.value ("Invalid log level: " ++ s)
      if logLevels.contains level then .ok (.ok level)
      else .ok (.error [{ field := "log_level", complaint }])
  | some value => .error (.noAttribute value.kind "upper")

/-- Reads a depth limit: none, or an integer that is not negative. -/
def depthOf : Json → Except Complaint (Option Int)
  | .null => .ok none
  | value => do
      let depth ← asInt value
      if depth < 0 then .error .greaterThanEqual else .ok (some depth)

/-- Reads the name of a policy for external edges. -/
def policyOf : Json → Except Complaint String
  | .str s => if (ExternalPolicy.ofName? s).isSome then .ok s else .error .literal
  | _ => .error .literal

/-- The problems with a setting. -/
def problems {α : Type} : Checked α → List Problem
  | .ok _ => []
  | .error problems => problems

/-- Reads all settings. Problems are collected over all of them, in their order;
a value that cannot even be looked at stops the reading at once. -/
def read (tree : FileTree) (sources : Sources) : Except Failure Settings := do
  let standard : SourceFilter := {}
  let scanPath ← sources.scanPath tree
  let logLevel ← sources.logLevel
  let extensions := sources.texts "extensions" standard.extensions
  let excluded := sources.texts "exclude_dirs" standard.excluded
  let maxDepth := sources.convert "max_depth" none depthOf
  let analyzeModes := sources.convert "analyze_modes" false asBool
  let externalEdges := sources.convert "external_edges" "strict" policyOf
  let outputFile := sources.convert "output_file" "dependency-graph.json" asText
  let watch := sources.convert "watch" true asBool
  let debounceSeconds := sources.convert "debounce_seconds" 2.0 asFloat
  let found := problems scanPath ++ problems extensions ++ problems excluded ++
    problems maxDepth ++ problems analyzeModes ++ problems externalEdges ++
    problems outputFile ++ problems logLevel ++ problems watch ++ problems debounceSeconds
  let checked : Checked Settings := do
    .ok {
      scanPath := ← scanPath
      filter := { extensions := ← extensions, excluded := ← excluded }
      maxDepth := ← maxDepth
      analyzeModes := ← analyzeModes
      externalEdges := ← externalEdges
      outputFile := ← outputFile
      logLevel := ← logLevel
      watch := ← watch
      debounceSeconds := ← debounceSeconds }
  checked.mapError fun _ => .invalidSettings found

/-- The name of the environment file. -/
def envFileName : String := ".env"

/-- The bindings of the environment file, if there is one. -/
def envFile (tree : FileTree) (environment : List (String × String)) :
    Except Failure (List EnvFile.Binding) := do
  if ← tree.isFile? envFileName then
    .ok (EnvFile.parse environment (← tree.readText envFileName))
  else .ok []

/-- Loads the settings from the given options, the environment and the
environment file. -/
def load (tree : FileTree) (environment : List (String × String))
    (options : List (String × Json)) : Except Failure Settings := do
  let file ← envFile tree environment
  read tree { options, environment, file }

end Settings

end ModuleAtlas
