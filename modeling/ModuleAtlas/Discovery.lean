import ModuleAtlas.FileTree.Probe
import ModuleAtlas.Notice
import ModuleAtlas.SourceFilter

/-! # Discovery of source files

Directories are walked from a root: first the files of a directory by name, then
its subdirectories by name. Excluded directories are not entered, nor are
directories reached through links.
-/

namespace ModuleAtlas

/-- What a walk found and reported. -/
structure Discovery where
  files : List String
  notices : List Notice
  deriving Repr

namespace Discovery

/-- A walk that found and reported nothing. -/
def none : Discovery := ⟨[], []⟩

/-- One walk after another. -/
def append (first second : Discovery) : Discovery :=
  ⟨first.files ++ second.files, first.notices ++ second.notices⟩

end Discovery

namespace FileTree

/-- The entries of a directory that was reached along the written path `shown`. -/
def list (tree : FileTree) (shown : String) (location : Location) :
    Except Fault (List (String × Entry)) :=
  if pathLimit ≤ shown.utf8ByteSize then .error .nameTooLong
  else
    match tree.entry? location with
    | some (.directory true _) => .ok (tree.children location)
    | some (.directory false _) => .error .denied
    | some _ => .error .notDirectory
    | none => .error .notFound

/-- Whether an entry of a directory is shown as a directory: it is one, or it is
a link that leads to one. -/
def listsAsDirectory (tree : FileTree) (location : Location) (member : String × Entry) : Bool :=
  match member.2 with
  | .directory _ _ => true
  | .file _ _ => false
  | .link _ =>
      match tree.walk true linkLimit location [member.1] with
      | .ok target => ((tree.entry? target).map Entry.isDirectory).getD false
      | .error _ => false

private theorem length_le_height {tree : FileTree} {location : Location} {entry : Entry}
    (present : tree.entry? location = some entry) : location.length ≤ tree.height := by
  unfold entry? at present
  split at present
  · next root => simp [root]
  · have bound : ∀ (entries : List (Location × Entry)), entries.lookup location = some entry →
        location.length ≤ (entries.map fun other => other.1.length).foldr max 0 := by
      intro entries
      induction entries with
      | nil => simp
      | cons first rest ih =>
          intro found
          obtain ⟨key, value⟩ := first
          simp only [List.map_cons, List.foldr_cons]
          by_cases same : location = key
          · subst same
            exact Nat.le_max_left _ _
          · rw [List.lookup_cons, show (location == key) = false from beq_false_of_ne same] at found
            exact Nat.le_trans (ih found) (Nat.le_max_right _ _)
    exact bound tree.entries present

/-- The source files below a directory. `shown` is the written path along which
it was reached, `names` are the names from the root of the walk down to it. -/
def discoverFrom (tree : FileTree) (filter : SourceFilter) (shown : String) (location : Location)
    (names : List String) : Discovery :=
  match tree.list shown location with
  | .error fault => ⟨[], [.unreadableDirectory shown fault]⟩
  | .ok members =>
      let relative (name : String) := Text.join "/" (names ++ [name])
      let directories := Text.sortTexts
        ((members.filter (tree.listsAsDirectory location)).map Prod.fst)
      let others := Text.sortTexts
        ((members.filter (!tree.listsAsDirectory location ·)).map Prod.fst)
      let skipped := directories.filter fun name => filter.excludes (relative name)
      let kept := directories.filter fun name => !filter.excludes (relative name)
      let own : Discovery :=
        ⟨(others.filter filter.supports).map relative,
          skipped.map fun name => .excludedDirectory (relative name)⟩
      let below := kept.map fun name =>
        if !((tree.entry? location).map Entry.isSearchable).getD false then
          ⟨[], [.unreadableDirectory (Path.joinText shown name) .denied]⟩
        else
          match _present : tree.entry? (location ++ [name]) with
          | some (.directory _ _) =>
              tree.discoverFrom filter (Path.joinText shown name) (location ++ [name])
                (names ++ [name])
          | _ => Discovery.none
      below.foldl Discovery.append own
termination_by tree.height - location.length
decreasing_by
  have := length_le_height _present
  simp only [List.length_append, List.length_singleton] at this ⊢
  omega

/-- The source files below a root, as paths relative to it. A root that is
missing or no directory has none. -/
def discover (tree : FileTree) (filter : SourceFilter) (root : Path) :
    List Notice × Except Failure (List String) :=
  let shown := root.toString
  match tree.exists? shown, tree.isDirectory? shown with
  | .error failure, _ => ([], .error failure)
  | .ok false, _ => ([.missingRoot shown], .ok [])
  | .ok true, .error failure => ([], .error failure)
  | .ok true, .ok false => ([.rootNotDirectory shown], .ok [])
  | .ok true, .ok true =>
      match tree.locate true shown with
      | .error fault => ([.unreadableDirectory shown fault], .ok [])
      | .ok location =>
          let found := tree.discoverFrom filter shown location []
          (found.notices ++ [.filesFound found.files.length shown], .ok found.files)

end FileTree

end ModuleAtlas
