import Mathlib
import ModuleAtlas.Proofs.Build.Coverage
import ModuleAtlas.Proofs.Build.Descent
import ModuleAtlas.Proofs.Text.Utf8

/-! # Files directly below the root

For an entry directly below a root that may be searched, the questions of a build have
plain answers: it is found under its name, it may be started from, and a file next to
it depends on it by writing `./` before its name
(`ModuleAtlas.Project.Child.dependency?_sibling`).
-/

namespace ModuleAtlas

private theorem partsOf_dot_slash {name : String} (valid : isEntryName name = true) :
    Path.partsOf ("./" ++ name) = [name] := by
  have chars : ("./" ++ name).toList = ['.'] ++ '/' :: name.toList := by simp
  have named := (isProper_of_isEntryName valid).1
  have pieces : Text.splitAt '/' ("./" ++ name) = [".", name] := by
    rw [Text.splitAt, chars, Text.splitChars_append_cons, Text.splitChars_of_notMem named.2]
    simp [Text.splitChars]
  rw [Path.partsOf, pieces, List.filter_cons_of_neg (by decide), List.filter_cons_of_pos named.1,
    List.filter_nil]

namespace Project

/-- An entry stands directly below the root of a project, which may be searched. -/
structure Child (project : Project) (name : String) (entry : Entry) : Prop where
  absolute : project.root.isAbsolute = true
  opened : project.tree.IsOpen project.root.parts
  present : project.tree.entry? (project.root.parts ++ [name]) = some entry
  short : (project.fullPath name).utf8ByteSize < pathLimit

namespace Child

variable {project : Project} {name other text : String} {entry : Entry} {content : List UInt8}
  {readable : Bool}

private theorem isEntryName (child : project.Child name entry) :
    ∀ part ∈ project.root.parts ++ [name], isEntryName part = true :=
  FileTree.isEntryName_of_entry? child.present

private theorem isEntryName_self (child : project.Child name entry) :
    ModuleAtlas.isEntryName name = true :=
  child.isEntryName name List.mem_concat_self

private theorem isProper (child : project.Child name entry) : ∀ part ∈ [name], Path.IsProper part :=
  List.forall_mem_singleton.mpr (isProper_of_isEntryName child.isEntryName_self).1

private theorem plain (child : project.Child name entry) : ".." ∉ project.root.parts ++ [name] :=
  fun member => (isProper_of_isEntryName (child.isEntryName ".." member)).2 rfl

private theorem join_eq (child : project.Child name entry) :
    project.root.join name = project.root.extend [name] child.isProper := by
  have pieces := Text.splitAt_of_notMem (isProper_of_isEntryName child.isEntryName_self).1.2
  have normal : Path.IsNormal name := by
    have joined := isNormal_join_of_isEntryName (List.cons_ne_nil name []) fun part member =>
      child.isEntryName part (List.mem_append_right _ member)
    exact joined
  rw [normal.join_eq]
  simp only [pieces]

private theorem fullPath_eq (child : project.Child name entry) :
    project.fullPath name = (project.root.extend [name] child.isProper).toString := by
  rw [fullPath, child.join_eq]

/-- A child of the root that is no link is found where the project spells it. -/
theorem stat (child : project.Child name entry) (solid : ∀ target, entry ≠ .link target) :
    project.tree.stat (project.fullPath name) = .ok entry := by
  have short := child.short
  rw [child.fullPath_eq] at short ⊢
  exact FileTree.stat_of_isOpen child.absolute short rfl child.opened child.present solid

/-- The path of a child is followed from the root. -/
theorem locate (child : project.Child name entry) :
    project.tree.locate true (project.fullPath name) =
      project.tree.walk true linkLimit project.root.parts [name] := by
  have short := child.short
  rw [child.fullPath_eq] at short ⊢
  exact FileTree.locate_of_isOpen child.absolute (List.concat_ne_nil _ _)
    (fun part member => nul_notMem_of_isEntryName (child.isEntryName part member)) short rfl
    child.opened

/-- A child of the root that is a file is a regular file of the project. -/
theorem isRegular (child : project.Child name (.file content readable)) :
    project.IsRegular name := by
  unfold IsRegular FileTree.isFile? FileTree.probe
  rw [child.stat (Entry.file_ne_link _ _)]
  rfl

/-- A readable child is read as the text its bytes decode to, with line feeds. -/
theorem readText (child : project.Child name (.file content true))
    (decoded : Text.Utf8.decode content = .ok text) :
    project.tree.readText (project.fullPath name) = .ok (Text.withLineFeeds text) := by
  have bytes : project.tree.readBytes (project.fullPath name) = .ok content := by
    unfold FileTree.readBytes
    rw [child.stat (Entry.file_ne_link _ _)]
  unfold FileTree.readText
  rw [bytes]
  dsimp only [bind, Except.bind]
  rw [decoded]

/-- The references of a readable child are those extracted from its text. -/
theorem references? (child : project.Child name (.file content true))
    (decoded : Text.Utf8.decode content = .ok text) :
    project.references? name = .ok (some (Reference.extract (Text.withLineFeeds text))) := by
  rw [references?_of_regular child.isRegular, Reference.ofPath, child.readText decoded]
  rfl

/-- A file directly below the root may be started from under its name. -/
theorem startPoint? (child : project.Child name (.file content readable)) :
    Build.startPoint? project name = .ok (some name) := by
  have regular := child.isRegular
  rw [IsRegular, child.fullPath_eq] at regular
  have normal : (project.root.join name).normalize = project.root.join name := by
    rw [child.join_eq]
    exact Path.normalize_of_notMem child.plain
  unfold Build.startPoint?
  dsimp only
  rw [normal, child.join_eq, regular, Path.relativeTo?_extend]
  rfl

private theorem basePath_sibling (child : project.Child name entry) {beside : Entry}
    (sibling : project.Child other beside) :
    Resolution.basePath (project.fullPath name) ("./" ++ other) =
      project.root.extend [other] sibling.isProper := by
  have directory : Path.directoryOf (project.fullPath name) = project.root := by
    have rooted : (project.root.extend [name] child.isProper).isAbsolute = true := child.absolute
    rw [child.fullPath_eq, Path.directoryOf_toString rooted (List.concat_ne_nil _ _)]
    exact Path.eq_of_parts rfl List.dropLast_concat
  unfold Resolution.basePath
  simp only [directory, partsOf_dot_slash sibling.isEntryName_self]
  exact Path.normalize_of_notMem sibling.plain

/-- A file directly below the root depends on the file next to it that it names. -/
theorem dependency?_sibling {reference : String} (child : project.Child name entry)
    (sibling : project.Child other (.file content readable)) (spelled : reference = "./" ++ other) :
    project.dependency? name reference = some (other, false) := by
  subst spelled
  have isLocal : Resolution.isLocal ("./" ++ other) = true := by
    simp [Resolution.isLocal, Text.beginsWith]
  have regular := sibling.isRegular
  rw [IsRegular, sibling.fullPath_eq] at regular
  exact dependency?_of_isLocal child.absolute sibling.isProper isLocal
    (child.basePath_sibling sibling) regular

end Child

end Project

namespace Build

/-- Two files that import each other, next to one that cannot be read. -/
def loopProject : Project where
  tree := .ofEntries
    [(["p"], .directory true true),
     (["p", "a.js"], .file "import './b.js'".toUTF8.toList true),
     (["p", "b.js"], .file "import './a.js'".toUTF8.toList true),
     (["p", "c.js"], .file [] false)]
  root := projectRoot
  policy := .lenient

/-- Discovery lists the three scripts of the loop, in order. -/
theorem discover_loopProject :
    (loopProject.tree.discover {} loopProject.root).2 = .ok ["a.js", "b.js", "c.js"] := by
  cbv

/-- Two scripts of the loop are files that import each other. -/
theorem child_loopProject :
    loopProject.Child "a.js" (.file "import './b.js'".toUTF8.toList true) ∧
      loopProject.Child "b.js" (.file "import './a.js'".toUTF8.toList true) := by
  have opened : loopProject.tree.IsOpen ["p"] := by decide
  exact ⟨⟨rfl, opened, rfl, by decide +kernel⟩, ⟨rfl, opened, rfl, by decide +kernel⟩⟩

/-- The two scripts read as the imports they hold. -/
theorem readText_loopProject :
    loopProject.tree.readText (loopProject.fullPath "a.js") = .ok "import './b.js'" ∧
      loopProject.tree.readText (loopProject.fullPath "b.js") = .ok "import './a.js'" := by
  have unbroken : Text.withLineFeeds "import './b.js'" = "import './b.js'" ∧
      Text.withLineFeeds "import './a.js'" = "import './a.js'" := ⟨by cbv, by cbv⟩
  have reads := child_loopProject.1.readText (Text.Utf8.decode_toUTF8 _)
  have rereads := child_loopProject.2.readText (Text.Utf8.decode_toUTF8 _)
  rw [unbroken.1] at reads
  rw [unbroken.2] at rereads
  exact ⟨reads, rereads⟩

/-- The import of the first script is an internal dependency on the second. -/
theorem dependency?_loopProject :
    loopProject.dependency? "a.js" "./b.js" = some ("b.js", false) :=
  child_loopProject.1.dependency?_sibling child_loopProject.2 (by decide +kernel)

end Build

end ModuleAtlas
