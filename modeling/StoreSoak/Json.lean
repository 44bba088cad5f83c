import StoreSoak.Text.Basic

/-!
JSON documents as values.

Numbers keep the characters they are written with, so that none is rounded, and objects keep every
member in its place, repeated names included. A written string may hold a half of a surrogate pair
by itself; it is a string of the format that names no text, and it is kept as `none`.

* `ofNat`, `ofText`, `ofOption` build the values that the library writes.
-/

namespace StoreSoak

/-- A JSON value. -/
inductive Json where
  | null
  | bool (b : Bool)
  /-- A number, by the characters that write it. -/
  | number (lexeme : List Char)
  /-- A string, by its text if it has one. -/
  | string (text : Option String)
  | array (items : List Json)
  | object (members : List (Option String × Json))
  deriving Inhabited

namespace Json

/-- A natural number. -/
def ofNat (n : Nat) : Json :=
  .number (Text.decimal n)

/-- A text. -/
def ofText (s : String) : Json :=
  .string (some s)

/-- A value that may be absent, `null` when it is. -/
def ofOption {α : Type} (f : α → Json) : Option α → Json
  | none => .null
  | some a => f a

/-- An object with the given names and values. -/
def record (fields : List (String × Json)) : Json :=
  .object (fields.map fun f => (some f.1, f.2))

end Json

end StoreSoak
