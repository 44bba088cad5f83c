import StoreSoak.Json

/-!
JSON documents as text.

* `compact` writes a value without any blank.
* `pretty` puts every item and every member on a line of its own, two blanks further in than what
  holds it; an empty container stays `[]` or `\x7b\x7d`.
* In strings the quote, the backslash and the control characters below the blank are escaped, every
  other character stands for itself (`escape`).

A string without a text is written as the replacement character; no value that the library builds
holds one.
-/

namespace StoreSoak.Json

/-- How one character stands in a string. -/
def escape (c : Char) : List Char :=
  if c = '"' then ['\\', '"']
  else if c = '\\' then ['\\', '\\']
  else if c = '\n' then ['\\', 'n']
  else if c = '\r' then ['\\', 'r']
  else if c = '\t' then ['\\', 't']
  else if c = '\x08' then ['\\', 'b']
  else if c = '\x0c' then ['\\', 'f']
  else if c.toNat < 32 then '\\' :: 'u' :: Text.padded 16 4 c.toNat
  else [c]

/-- A text between double quotes. -/
def quoted (s : List Char) : List Char :=
  '"' :: (s.flatMap escape ++ ['"'])

/-- A string, which stands for its text if it has one. -/
def quotedText (s : Option String) : List Char :=
  quoted (s.elim ['\ufffd'] String.toList)

/-- The two truth values. -/
def truth (b : Bool) : List Char :=
  if b then ['t', 'r', 'u', 'e'] else ['f', 'a', 'l', 's', 'e']

/-- The null value. -/
def nullChars : List Char := ['n', 'u', 'l', 'l']

mutual

/-- A value without any blank. -/
def compactChars : Json → List Char
  | .null => nullChars
  | .bool b => truth b
  | .number lexeme => lexeme
  | .string s => quotedText s
  | .array items => '[' :: (compactItems items ++ [']'])
  | .object members => '\x7b' :: (compactMembers members ++ ['\x7d'])

/-- Values with commas between them. -/
def compactItems : List Json → List Char
  | [] => []
  | [v] => compactChars v
  | v :: w :: rest => compactChars v ++ ',' :: compactItems (w :: rest)

/-- Members with commas between them. -/
def compactMembers : List (Option String × Json) → List Char
  | [] => []
  | [(name, v)] => quotedText name ++ ':' :: compactChars v
  | (name, v) :: w :: rest =>
    quotedText name ++ ':' :: (compactChars v ++ ',' :: compactMembers (w :: rest))

end

/-- The beginning of a line at the given depth. -/
def newLine (depth : Nat) : List Char :=
  '\n' :: List.replicate (2 * depth) ' '

mutual

/-- A value on lines of its own, its first line already begun at the given depth. -/
def prettyChars (depth : Nat) : Json → List Char
  | .null => nullChars
  | .bool b => truth b
  | .number lexeme => lexeme
  | .string s => quotedText s
  | .array [] => ['[', ']']
  | .array (v :: rest) => '[' :: (prettyItems (depth + 1) (v :: rest) ++ newLine depth ++ [']'])
  | .object [] => ['\x7b', '\x7d']
  | .object (m :: rest) =>
    '\x7b' :: (prettyMembers (depth + 1) (m :: rest) ++ newLine depth ++ ['\x7d'])

/-- Values, each on a line of its own. -/
def prettyItems (depth : Nat) : List Json → List Char
  | [] => []
  | [v] => newLine depth ++ prettyChars depth v
  | v :: w :: rest => newLine depth ++ prettyChars depth v ++ ',' :: prettyItems depth (w :: rest)

/-- Members, each on a line of its own. -/
def prettyMembers (depth : Nat) : List (Option String × Json) → List Char
  | [] => []
  | [(name, v)] => newLine depth ++ quotedText name ++ ':' :: ' ' :: prettyChars depth v
  | (name, v) :: w :: rest =>
    newLine depth ++ quotedText name ++
      ':' :: ' ' :: (prettyChars depth v ++ ',' :: prettyMembers depth (w :: rest))

end

/-- A value as text without any blank. -/
def compact (v : Json) : String :=
  String.ofList (compactChars v)

/-- A value as text on lines of its own. -/
def pretty (v : Json) : String :=
  String.ofList (prettyChars 0 v)

end StoreSoak.Json
