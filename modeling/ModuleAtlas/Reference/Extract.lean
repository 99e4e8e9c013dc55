import ModuleAtlas.Reference.Form

/-! # References of a source text

A form is looked for from left to right; behind a form that was found the
search goes on at its end. The references of a text are those of each form in
turn, every one listed where it was first seen.
-/

namespace ModuleAtlas.Reference

/-- The references that a form finds in a text, from left to right. -/
def Form.scan (form : Form) : List Char → List (List Char)
  | [] => []
  | c :: s =>
      match _found : form.read (c :: s) with
      | some (ref, rest) => ref :: form.scan rest
      | none => form.scan s
termination_by s => s.length
decreasing_by
  · exact form.shorter _found
  · simp

/-- The distinct references of a source text. -/
def extract (source : String) : List String :=
  (forms.flatMap fun form => form.scan source.toList).eraseDups.map String.ofList

end ModuleAtlas.Reference
