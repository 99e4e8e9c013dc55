/-! # Line ends

Every way to end a line is read as one line feed.
-/

namespace ModuleAtlas.Text

/-- Characters with every carriage return, and the line feed that may follow it,
read as one line feed. -/
def lineFeeds : List Char → List Char
  | [] => []
  | '\r' :: '\n' :: rest => '\n' :: lineFeeds rest
  | '\r' :: rest => '\n' :: lineFeeds rest
  | c :: rest => c :: lineFeeds rest

/-- A text with every line end read as one line feed. -/
def withLineFeeds (s : String) : String := String.ofList (lineFeeds s.toList)

end ModuleAtlas.Text
