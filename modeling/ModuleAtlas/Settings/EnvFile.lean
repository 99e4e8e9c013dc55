import ModuleAtlas.Text.Blank

/-! # Environment files

An environment file binds names to values, one binding a line. A value may be
quoted, with escapes, and then runs over line ends; an unquoted value ends at a
comment. Lines that are no binding are passed over. `${NAME}` in a value stands
for an earlier binding or a variable of the environment.
-/

namespace ModuleAtlas.EnvFile

open Text

/-- Whether a character is blank and does not end a line. -/
def isGap (c : Char) : Bool := isBlank c && c ≠ '\n' && c ≠ '\r'

/-- Whether a character ends a line. -/
def isLineEnd (c : Char) : Bool := c = '\n' || c = '\r'

/-- The text behind the word `export` and the blanks that follow it. -/
def dropExport (s : List Char) : List Char :=
  match s with
  | 'e' :: 'x' :: 'p' :: 'o' :: 'r' :: 't' :: c :: rest =>
      if isGap c then rest.dropWhile isGap else s
  | _ => s

/-- What was read so far, or where reading stopped. -/
abbrev Step (α : Type) := Except (List Char) (α × List Char)

/-- The name of a binding; a comment has none. -/
def readName (s : List Char) : Step (Option (List Char)) :=
  match s with
  | '#' :: _ => .ok (none, s)
  | '\'' :: rest =>
      match rest.takeWhile (· ≠ '\''), rest.dropWhile (· ≠ '\'') with
      | c :: name, _ :: behind => .ok (some (c :: name), behind)
      | _, _ => .error s
  | _ =>
      let inside (c : Char) : Bool := c ≠ '=' && c ≠ '#' && !isBlank c
      match s.takeWhile inside with
      | [] => .error s
      | name => .ok (some name, s.dropWhile inside)

/-- The characters up to a closing quote. A quote behind a backslash closes only
if no later one does. -/
def readQuoted (quote : Char) : List Char → Option (List Char × List Char)
  | [] => none
  | c :: rest =>
      if c = quote then some ([], rest)
      else if c = '\\' then
        match rest with
        | d :: more =>
            if d = quote then
              match readQuoted quote more with
              | some (value, behind) => some (c :: d :: value, behind)
              | none => some ([c], more)
            else
              (readQuoted quote (d :: more)).map fun found => (c :: found.1, found.2)
        | [] => none
      else (readQuoted quote rest).map fun found => (c :: found.1, found.2)

/-- The character that an escape in double quotes stands for. -/
def escaped? : Char → Option Char
  | '\\' => some '\\'
  | '\'' => some '\''
  | '"' => some '"'
  | 'a' => some '\x07'
  | 'b' => some '\x08'
  | 'f' => some '\x0c'
  | 'n' => some '\n'
  | 'r' => some '\r'
  | 't' => some '\t'
  | 'v' => some '\x0b'
  | _ => none

/-- The character that an escape in single quotes stands for. -/
def plainEscaped? : Char → Option Char
  | '\\' => some '\\'
  | '\'' => some '\''
  | _ => none

/-- Characters with their escapes replaced. -/
def unescape (meaning : Char → Option Char) : List Char → List Char
  | [] => []
  | ['\\'] => ['\\']
  | '\\' :: c :: rest =>
      match meaning c with
      | some d => d :: unescape meaning rest
      | none => '\\' :: unescape meaning (c :: rest)
  | c :: rest => c :: unescape meaning rest

/-- Characters up to the first blanks that a comment sign follows. -/
def dropComment : List Char → List Char
  | [] => []
  | c :: rest =>
      if isBlank c && (rest.dropWhile isBlank).head? = some '#' then [] else c :: dropComment rest

/-- The value of a binding. -/
def readValue (s : List Char) : Step (List Char) :=
  match s with
  | '\'' :: rest =>
      match readQuoted '\'' rest with
      | some (value, behind) => .ok (unescape plainEscaped? value, behind)
      | none => .error s
  | '"' :: rest =>
      match readQuoted '"' rest with
      | some (value, behind) => .ok (unescape escaped? value, behind)
      | none => .error s
  | _ =>
      let line := s.takeWhile (!isLineEnd ·)
      .ok (((dropComment line).reverse.dropWhile isBlank).reverse, s.dropWhile (!isLineEnd ·))

/-- The text behind the end of a line, where only blanks and a comment may come
before it. -/
def readLineEnd (s : List Char) : Step Unit :=
  let behindComment :=
    match s.dropWhile isGap with
    | '#' :: rest => rest.dropWhile (!isLineEnd ·)
    | _ => s
  match behindComment.dropWhile isGap with
  | [] => .ok ((), [])
  | '\r' :: '\n' :: rest => .ok ((), rest)
  | c :: rest => if isLineEnd c then .ok ((), rest) else .error behindComment

/-- A binding without a value has none, not even the empty one. -/
abbrev Binding := String × Option String

/-- One line, from its first character that is not blank. -/
def readLine (s : List Char) : Except (List Char) (Option Binding × List Char) := do
  let (name, behindName) ← readName (dropExport s)
  let (value, behindValue) ←
    match behindName.dropWhile isGap with
    | '=' :: rest => (readValue (rest.dropWhile isGap)).map fun read => (some read.1, read.2)
    | rest => .ok (none, rest)
  let ((), rest) ← readLineEnd behindValue
  .ok (name.map fun name => (String.ofList name, value.map String.ofList), rest)

/-- The text behind the line that `s` stands in. -/
def dropLine (s : List Char) : List Char := (s.dropWhile (!isLineEnd ·)).drop 1

/-- The bindings of a text, in order. A line that is none is passed over from
where its reading stopped. -/
def readBindings (s : List Char) : List Binding :=
  let start := s.dropWhile isBlank
  if start.isEmpty then []
  else
    let (binding, rest) :=
      match readLine start with
      | .ok found => found
      | .error stopped => (none, dropLine stopped)
    if rest.length < s.length then binding.toList ++ readBindings rest else binding.toList
termination_by s.length

/-- A list of bindings with one more: the later value in the earlier place. -/
def bind (bindings : List Binding) (name : String) (value : Option String) : List Binding :=
  if bindings.any (·.1 = name) then
    bindings.map fun binding => if binding.1 = name then (name, value) else binding
  else bindings ++ [(name, value)]

/-- The name, the default and the rest of a reference to a variable, from behind
its opening brace. -/
def readVariable (s : List Char) : Option (List Char × List Char × List Char) :=
  let name := s.takeWhile fun c => c ≠ '\x7d' && c ≠ ':'
  match s.dropWhile fun c => c ≠ '\x7d' && c ≠ ':' with
  | '\x7d' :: rest => some (name, [], rest)
  | ':' :: '-' :: behind =>
      match behind.dropWhile (· ≠ '\x7d') with
      | _ :: rest => some (name, behind.takeWhile (· ≠ '\x7d'), rest)
      | [] => none
  | _ => none

/-- A value with its references to variables replaced. -/
def interpolate (lookup : String → Option String) (s : List Char) : List Char :=
  match s with
  | [] => []
  | '$' :: '\x7b' :: rest =>
      match readVariable rest with
      | some (name, default, behind) =>
          ((lookup (String.ofList name)).getD (String.ofList default)).toList ++
            if behind.length < rest.length then interpolate lookup behind else []
      | none => '$' :: interpolate lookup ('\x7b' :: rest)
  | c :: rest => c :: interpolate lookup rest
termination_by s.length

/-- What a variable stands for: an earlier binding, of which one without a value
is empty, or a variable of the environment. -/
def lookupVariable (env : List (String × String)) (bound : List Binding) (name : String) :
    Option String :=
  match bound.lookup name with
  | some value => some (value.getD "")
  | none => env.lookup name

/-- The bindings of an environment file, read in the given environment. -/
def parse (env : List (String × String)) (text : String) : List Binding :=
  (readBindings text.toList).foldl
    (fun bound binding =>
      bind bound binding.1 (binding.2.map fun value =>
        String.ofList (interpolate (lookupVariable env bound) value.toList)))
    []

end ModuleAtlas.EnvFile
