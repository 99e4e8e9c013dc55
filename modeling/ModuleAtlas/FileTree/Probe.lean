import ModuleAtlas.Failure
import ModuleAtlas.FileTree.Walk
import ModuleAtlas.Text.Newline

/-! # Questions about files

`isRegular` takes every fault for a no. The other questions take only those
faults for a no that say that nothing is there, and fail on the rest.
-/

namespace ModuleAtlas.FileTree

/-- Whether a path leads to a regular file, as far as can be seen. -/
def isRegular (tree : FileTree) (path : String) : Bool :=
  match tree.stat path with
  | .ok entry => entry.isFile
  | .error _ => false

/-- Whether what stands where a path leads satisfies a test. -/
def probe (tree : FileTree) (test : Entry → Bool) (path : String) : Except Failure Bool :=
  match tree.stat path with
  | .ok entry => .ok (test entry)
  | .error fault => if fault.isAbsence then .ok false else .error (.file fault path)

/-- Whether anything stands where a path leads. -/
def exists? (tree : FileTree) (path : String) : Except Failure Bool :=
  tree.probe (fun _ => true) path

/-- Whether a path leads to a regular file. -/
def isFile? (tree : FileTree) (path : String) : Except Failure Bool :=
  tree.probe Entry.isFile path

/-- Whether a path leads to a directory. -/
def isDirectory? (tree : FileTree) (path : String) : Except Failure Bool :=
  tree.probe Entry.isDirectory path

/-- The bytes of the file that a path leads to. -/
def readBytes (tree : FileTree) (path : String) : Except Failure (List UInt8) :=
  match tree.stat path with
  | .ok (.file content true) => .ok content
  | .ok (.directory true _) => .error (.file .isDirectory path)
  | .ok _ => .error (.file .denied path)
  | .error fault => .error (.file fault path)

/-- The text of the file that a path leads to, its line ends read as line
feeds. -/
def readText (tree : FileTree) (path : String) : Except Failure String := do
  let bytes ← tree.readBytes path
  match Text.Utf8.decode bytes with
  | .ok text => .ok (Text.withLineFeeds text)
  | .error fault => .error (.undecodable fault)

end ModuleAtlas.FileTree
