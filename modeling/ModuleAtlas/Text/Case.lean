/-! # Letter case

Keywords, variable names and level names are ASCII, so their comparison needs
only the letters that a case change carries into or out of ASCII.
-/

namespace ModuleAtlas.Text

/-- A text with its ASCII letters in lower case. The lower case of a character
beyond ASCII holds no ASCII text but the letter k and an i under a combining
dot, so containment of a keyword without k and not ending in i is exact. -/
def lowerCase (s : String) : String := String.ofList (s.toList.map Char.toLower)

/-- The capital form of one character: ASCII letters, and the dotless i, whose
capital is the ASCII letter. -/
def capital (c : Char) : Char := if c = 'ı' then 'I' else c.toUpper

/-- A text in capitals. -/
def upperCase (s : String) : String := String.ofList (s.toList.map capital)

end ModuleAtlas.Text
