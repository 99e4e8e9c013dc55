import ModuleAtlas.Build.Traversal
import ModuleAtlas.Discovery

/-! # Building a dependency graph

A build discovers the source files of a project and traverses them, from one
start file or from all of them in turn. The store is frozen at the end; a build
that fails leaves it open, with what was recorded before the failure.
-/

namespace ModuleAtlas

/-- What a build is asked for. -/
structure BuildRequest where
  filter : SourceFilter := {}
  startFile : Option String := none
  limit : DepthLimit := .unlimited

/-- What a build leaves behind. -/
structure Build where
  store : Store
  events : List Build.Event
  failure : Option Failure

namespace Build

/-- The notices of a build. -/
def notices (build : Build) : List Notice :=
  build.events.filterMap fun
    | .notice notice => some notice
    | _ => none

/-- The absolute form of a root as it was written. -/
def absoluteRoot (tree : FileTree) (root : Path) : Path :=
  (tree.workingPath.append root).normalize

/-- What is reported before the files are discovered. -/
def openingNotices (project : Project) (request : BuildRequest) : List Notice :=
  [ .lookingIn project.root.toString,
    .searchedExtensions request.filter.extensions,
    .excludedFragments request.filter.excluded ] ++
    request.limit.shown.toList.map .depthLimited

/-- The traversal from a start file, if it is a regular file below the root. -/
def fromStart (task : Task) (start : String) (progress : Progress) :
    Progress × Option Failure :=
  let root := task.project.root
  let path := (root.join start).normalize
  match task.project.tree.isFile? path.toString with
  | .error failure => (progress, some failure)
  | .ok false => (progress.note (.startMissing path.toString), none)
  | .ok true =>
      match path.relativeTo? root with
      | none => (progress.note (.startOutside root.toString path.toString), none)
      | some parts =>
          let file := Path.relativeText parts
          traverse task file (progress.note (.startingFrom file))

/-- The traversal from the start file, or from every discovered file. -/
def traversal (task : Task) (start : Option String) (files : List String) (progress : Progress) :
    Progress × Option Failure :=
  match start with
  | some start =>
      if start = "" then traverseAll task (progress.note .processingAll) files
      else fromStart task start progress
  | none => traverseAll task (progress.note .processingAll) files

/-- What is reported of a graph that was built. -/
def closingNotice (graph : Graph) : Notice :=
  let counts := graph.statistics
  .graphBuilt counts.scanned counts.nodes counts.edges counts.externalEdges

/-- Builds the graph of a project into a store. -/
def build (project : Project) (request : BuildRequest) (store : Store) : Build :=
  if store.frozen then ⟨store, [], some .alreadyBuilt⟩
  else
    let (found, discovered) := project.tree.discover request.filter project.root
    let opening := openingNotices project request ++ found
    match discovered with
    | .error failure => ⟨store, opening.map .notice, some failure⟩
    | .ok files =>
        let start : Progress := { graph := store.graph, fresh := files, journal := [] }
        let (progress, failure) :=
          traversal ⟨project, request.limit⟩ request.startFile files (start.noteAll opening)
        match failure with
        | some failure => ⟨⟨progress.graph, false⟩, progress.events, some failure⟩
        | none =>
            ⟨⟨progress.graph, true⟩, (progress.note (closingNotice progress.graph)).events, none⟩

end Build

end ModuleAtlas
