import ModuleAtlas.FileTree.Basic
import ModuleAtlas.FileTree.Fault
import ModuleAtlas.Text.Search

/-! # Following paths

A path is followed name by name from the root directory or the working
directory. Every directory on the way must be searchable, links are followed
at most forty times, and the last name may be missing: whether something stands
at the location that was found is a second question.
-/

namespace ModuleAtlas.FileTree

open Text

/-- The names that a text leads through. A closing slash asks for a directory,
which the name `.` says. -/
def segments (s : String) : List String :=
  let names := (splitAt '/' s).filter (· ≠ "")
  if endsWith s "/" && !names.isEmpty then names ++ ["."] else names

/-- The location that names lead to from `here`. Links are followed, the last
one only if `follow` says so; `links` of them are still allowed. -/
def walk (tree : FileTree) (follow : Bool) (links : Nat) (here : Location) :
    List String → Except Fault Location
  | [] => .ok here
  | name :: rest =>
      match tree.entry? here with
      | some (.directory _ searchable) =>
          if !searchable then .error .denied
          else if name = "." then tree.walk follow links here rest
          else if name = ".." then tree.walk follow links here.dropLast rest
          else if nameLimit < name.utf8ByteSize then .error .nameTooLong
          else
            match tree.entry? (here ++ [name]) with
            | none => if rest.isEmpty then .ok (here ++ [name]) else .error .notFound
            | some (.link target) =>
                if rest.isEmpty && !follow then .ok (here ++ [name])
                else
                  match links with
                  | 0 => .error .tooManyLinks
                  | links + 1 =>
                      tree.walk follow links (if beginsWith target "/" then [] else here)
                        (segments target ++ rest)
            | some _ => tree.walk follow links (here ++ [name]) rest
      | _ => .error .notDirectory
termination_by names => (links, names.length)

/-- The location that a path leads to. -/
def locate (tree : FileTree) (follow : Bool) (path : String) : Except Fault Location :=
  if path.toList.contains '\x00' then .error .nulInPath
  else if path = "" then .error .notFound
  else if pathLimit ≤ path.utf8ByteSize then .error .nameTooLong
  else
    tree.walk follow linkLimit (if beginsWith path "/" then [] else tree.workingDir)
      (segments path)

/-- What stands where a path leads, links followed. -/
def stat (tree : FileTree) (path : String) : Except Fault Entry := do
  let location ← tree.locate true path
  match tree.entry? location with
  | some entry => .ok entry
  | none => .error .notFound

end ModuleAtlas.FileTree
