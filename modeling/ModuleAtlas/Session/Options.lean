import ModuleAtlas.Scan
import ModuleAtlas.Settings.Basic

/-! # Scan options given by name

Options arrive as named values and replace the configured ones. A name that a
scan does not know is refused, and so is the root, which the settings decide.
-/

namespace ModuleAtlas

/-- Options by name, in the order in which they were first given. -/
abbrev NamedOptions := Table Json

namespace NamedOptions

/-- Options with others put over them. -/
def merge (options others : NamedOptions) : NamedOptions :=
  others.foldl (fun merged option => Table.set merged option.1 option.2) options

/-- The value of an option, or else the configured one. -/
def value (named : NamedOptions) (name : String) (configured : Json) : Json :=
  (named.lookup name).getD configured

/-- What a value gives one by one: the items of a list, the names of an object or the characters
of a text. -/
def items : Json → Except Failure (List Json)
  | .arr items => .ok items
  | .obj fields => .ok (fields.map fun field => .str field.1)
  | .str s => .ok (s.toList.map fun c => .str (String.ofList [c]))
  | value => .error (.notIterable value.kind)

/-- The texts that items are, counted from `index` on. -/
def textsFrom (index : Nat) : List Json → Except Failure (List String)
  | [] => .ok []
  | .str s :: items => do .ok (s :: (← textsFrom (index + 1) items))
  | other :: _ => .error (.notText index other.kind)

/-- The start file that a value names, if it counts as given. -/
def startOf : Json → Except Failure (Option String)
  | .str s => .ok (some s)
  | value => if value.isTruthy then .error (.notJoinable value.kind) else .ok none

/-- The name of the policy that a value gives. -/
def policyOf : Json → Except Failure String
  | .str s =>
      if (ExternalPolicy.ofName? s).isSome then .ok s else .error (.unknownPolicy (Text.quoted s))
  | value => .error (.unknownPolicy value.display)

/-- The names that a scan takes. -/
def scanNames : List String :=
  ["extensions", "exclude_dirs", "start_file", "max_depth", "analyze_modes", "external_edges"]

/-- Refuses options with a name that a scan does not take. -/
def checkNames (named : NamedOptions) : Except Failure Unit :=
  if "settings" ∈ named.names then .error (.repeatedOption "scan_from_settings" "settings")
  else
    match named.names.find? (· ∉ scanNames) with
    | none => .ok ()
    | some name =>
        if name = "root_dir" then .error (.repeatedOption "scan_project" name)
        else .error (.unexpectedOption "scan_project" name)

/-- An outcome with what has been reported by then if it is a failure. -/
def after {α : Type} (notices : List Notice) (outcome : Except Failure α) :
    Except (List Notice × Failure) α :=
  outcome.mapError fun failure => (notices, failure)

/-- The scan options with named ones put over them. Names are checked before values, and the
values in the order in which a scan comes to use them; lists are taken apart first, and that
their items are texts shows only when they are reported. -/
def applyTo (named : NamedOptions) (tree : FileTree) (root : Path) (configured : ScanOptions) :
    Except (List Notice × Failure) ScanOptions := do
  after [] named.checkNames
  let startFile ← after []
    (startOf (named.value "start_file" ((configured.startFile.map .str).getD .null)))
  let opening := [Scan.openingNotice root startFile]
  let extensions ← after opening
    (items (named.value "extensions" (.strs configured.filter.extensions)))
  let excluded ← after opening
    (items (named.value "exclude_dirs" (.strs configured.filter.excluded)))
  let externalEdges ← after opening
    (policyOf (named.value "external_edges" (.str configured.externalEdges)))
  let looking := opening ++ [.lookingIn (Build.absoluteRoot tree root).toString]
  let extensions ← after looking (textsFrom 0 extensions)
  let excluded ← after (looking ++ [.searchedExtensions extensions]) (textsFrom 0 excluded)
  .ok {
    filter := { extensions, excluded }
    startFile
    limit := ((named.lookup "max_depth").map .ofJson).getD configured.limit
    analyzeModes := ((named.lookup "analyze_modes").map Json.isTruthy).getD configured.analyzeModes
    externalEdges }

/-- The build request that named options ask for. -/
def toBuildRequest (named : NamedOptions) (filter : SourceFilter) :
    Except Failure BuildRequest := do
  match named.names.find? (· ∉ ["start_file", "max_depth"]) with
  | some name => .error (.unexpectedOption "GraphBuilder.build" name)
  | none =>
      let startFile ← startOf (named.value "start_file" .null)
      .ok { filter, startFile, limit := .ofJson (named.value "max_depth" .null) }

end NamedOptions

/-- The scan options that settings configure. -/
def Settings.scanOptions (settings : Settings) (tree : FileTree) : ScanOptions where
  filter := settings.filter
  startFile := settings.startFile tree
  limit := match settings.maxDepth with
    | none => .unlimited
    | some depth => .atMost depth
  analyzeModes := settings.analyzeModes
  externalEdges := settings.externalEdges

/-- Scans the configured project with options put over the configured ones. -/
def scanConfigured (tree : FileTree) (settings : Settings) (options : NamedOptions) :
    List Notice × Except Failure ScanResult :=
  match options.applyTo tree (settings.rootDir tree) (settings.scanOptions tree) with
  | .error (notices, failure) => (notices, .error failure)
  | .ok options => scan tree (settings.rootDir tree) options

end ModuleAtlas
