/-! # Searching in text

Structural forms of the usual questions about texts: containment, ending,
splitting at a separator and joining with one, and the order of texts.
-/

namespace ModuleAtlas.Text

/-- Whether `part` stands somewhere in `chars`. -/
def occursIn (part : List Char) : List Char → Bool
  | [] => part.isEmpty
  | c :: rest => part.isPrefixOf (c :: rest) || occursIn part rest

/-- Whether the text `part` stands somewhere in `whole`. -/
def contains (whole part : String) : Bool := occursIn part.toList whole.toList

/-- Whether a text ends with another. -/
def endsWith (whole tail : String) : Bool := tail.toList.isSuffixOf whole.toList

/-- Whether a text begins with another. -/
def beginsWith (whole head : String) : Bool := head.toList.isPrefixOf whole.toList

/-- The pieces of a list of characters between the occurrences of a separator;
there is always at least one. -/
def splitChars (separator : Char) : List Char → List (List Char)
  | [] => [[]]
  | c :: rest =>
      if c = separator then [] :: splitChars separator rest
      else
        match splitChars separator rest with
        | [] => [[c]]
        | piece :: pieces => (c :: piece) :: pieces

/-- No piece between separators has a separator in it. -/
theorem not_mem_of_mem_splitChars {separator : Char} {chars piece : List Char}
    (member : piece ∈ splitChars separator chars) : separator ∉ piece := by
  induction chars generalizing piece with
  | nil =>
      simp only [splitChars, List.mem_singleton] at member
      simp [member]
  | cons c rest ih =>
      rw [splitChars] at member
      by_cases same : c = separator
      · simp only [same, ↓reduceIte, List.mem_cons] at member
        rcases member with rfl | member
        · simp
        · exact ih member
      · simp only [same, ↓reduceIte] at member
        cases pieces : splitChars separator rest with
        | nil =>
            simp only [pieces, List.mem_singleton] at member
            simp [member, Ne.symm same]
        | cons first others =>
            simp only [pieces, List.mem_cons] at member
            rcases member with rfl | member
            · have clean : separator ∉ first := ih (by simp [pieces])
              simp [clean, Ne.symm same]
            · exact ih (by simp [pieces, member])

/-- The pieces of a text between the occurrences of a separator. -/
def splitAt (separator : Char) (s : String) : List String :=
  (splitChars separator s.toList).map String.ofList

/-- Texts joined by a separator. -/
def join (separator : String) : List String → String
  | [] => ""
  | [piece] => piece
  | piece :: next :: rest => piece ++ separator ++ join separator (next :: rest)

/-- Texts in the order of their code points. -/
def sortTexts (texts : List String) : List String :=
  texts.mergeSort fun first second => decide (first ≤ second)

end ModuleAtlas.Text
