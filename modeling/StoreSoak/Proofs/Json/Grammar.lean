import Mathlib.Data.List.Basic
import StoreSoak.Json.Parser

/-!
How a JSON value is spelled.

One value has many spellings: blanks may stand between its parts, every character of a string may
be escaped, a number may have a fraction and an exponent.

* `Lexeme`: the characters of a number.
* `Spelled`: the characters between two quotes, by what they stand for; `Quotes` a string with its
  quotes.
* `Spells`: the characters of a value, with `Items` and `Members` for what stands in a container.
* `Document`: a value with nothing but blanks around it.
-/

namespace StoreSoak.Json

/-- A row of blanks, which may be empty. -/
def Blanks (s : List Char) : Prop :=
  ∀ c ∈ s, isBlank c = true

/-! ### Numbers -/

/-- A row of digits, at least one. -/
structure Digits (s : List Char) : Prop where
  ne_nil : s ≠ []
  isDigit : ∀ c ∈ s, c.isDigit = true

/-- The whole part of a number: a zero alone, or digits that begin with none. -/
inductive Whole : List Char → Prop where
  | zero : Whole ['0']
  | digits {c : Char} {s : List Char} (h : Digits (c :: s)) (hc : c ≠ '0') : Whole (c :: s)

/-- The fraction of a number. -/
inductive Fraction : List Char → Prop where
  | none : Fraction []
  | digits {s : List Char} (h : Digits s) : Fraction ('.' :: s)

/-- The letter of an exponent. -/
def IsExponent (c : Char) : Prop :=
  c = 'e' ∨ c = 'E'

/-- The sign of an exponent. -/
def IsSign (c : Char) : Prop :=
  c = '+' ∨ c = '-'

/-- The exponent of a number. -/
inductive Exponent : List Char → Prop where
  | none : Exponent []
  | plain {c : Char} {s : List Char} (hc : IsExponent c) (h : Digits s) : Exponent (c :: s)
  | signed {c d : Char} {s : List Char} (hc : IsExponent c) (hd : IsSign d) (h : Digits s) :
      Exponent (c :: d :: s)

/-- A number without its sign. -/
inductive Unsigned : List Char → Prop where
  | mk {w f e : List Char} (hw : Whole w) (hf : Fraction f) (he : Exponent e) :
      Unsigned (w ++ f ++ e)

/-- The characters of a number. -/
inductive Lexeme : List Char → Prop where
  | plain {s : List Char} (h : Unsigned s) : Lexeme s
  | negative {s : List Char} (h : Unsigned s) : Lexeme ('-' :: s)

/-! ### Strings -/

/-- Whether a character of a string stands for itself. -/
def isPlain (c : Char) : Bool :=
  32 ≤ c.toNat && c ≠ '"' && c ≠ '\\'

/-- The characters between two quotes, by the pieces that they stand for. -/
inductive Spelled : List Piece → List Char → Prop where
  | nil : Spelled [] []
  | plain {c : Char} {ps : List Piece} {s : List Char} (hc : isPlain c = true)
      (h : Spelled ps s) : Spelled (.char c :: ps) (c :: s)
  | escaped {c e : Char} {ps : List Piece} {s : List Char} (he : unescape? e = some c)
      (h : Spelled ps s) : Spelled (.char c :: ps) ('\\' :: e :: s)
  | unit {a b c d : Char} {n : ℕ} {ps : List Piece} {s : List Char}
      (hn : unit? a b c d = some n) (h : Spelled ps s) :
      Spelled (.unit n :: ps) ('\\' :: 'u' :: a :: b :: c :: d :: s)

/-- A string between its quotes, by its text if it has one. -/
inductive Quotes : Option String → List Char → Prop where
  | mk {ps : List Piece} {s : List Char} (h : Spelled ps s) :
      Quotes ((assemble ps).map String.ofList) ('"' :: (s ++ ['"']))

/-! ### Values -/

mutual

/-- The characters of a value, from its first one to its last one. -/
inductive Spells : Json → List Char → Prop where
  | null : Spells .null ['n', 'u', 'l', 'l']
  | isTrue : Spells (.bool true) ['t', 'r', 'u', 'e']
  | isFalse : Spells (.bool false) ['f', 'a', 'l', 's', 'e']
  | number {lexeme : List Char} (h : Lexeme lexeme) : Spells (.number lexeme) lexeme
  | string {text : Option String} {s : List Char} (h : Quotes text s) : Spells (.string text) s
  | emptyArray {b : List Char} (hb : Blanks b) : Spells (.array []) ('[' :: (b ++ [']']))
  | array {vs : List Json} {b s : List Char} (hb : Blanks b) (h : Items vs s) :
      Spells (.array vs) ('[' :: (b ++ (s ++ [']'])))
  | emptyObject {b : List Char} (hb : Blanks b) : Spells (.object []) ('\x7b' :: (b ++ ['\x7d']))
  | object {ms : List (Option String × Json)} {b s : List Char} (hb : Blanks b)
      (h : Members ms s) : Spells (.object ms) ('\x7b' :: (b ++ (s ++ ['\x7d'])))

/-- The values of an array, at least one, up to its closing bracket. -/
inductive Items : List Json → List Char → Prop where
  | last {v : Json} {s b : List Char} (h : Spells v s) (hb : Blanks b) : Items [v] (s ++ b)
  | cons {v : Json} {vs : List Json} {s b b' t : List Char} (h : Spells v s) (hb : Blanks b)
      (hb' : Blanks b') (ht : Items vs t) : Items (v :: vs) (s ++ (b ++ ',' :: (b' ++ t)))

/-- A member of an object, from the quote of its name to the last character of its value. -/
inductive Member : Option String × Json → List Char → Prop where
  | mk {name : Option String} {v : Json} {k b b' s : List Char} (hk : Quotes name k)
      (hb : Blanks b) (hb' : Blanks b') (h : Spells v s) :
      Member (name, v) (k ++ (b ++ ':' :: (b' ++ s)))

/-- The members of an object, at least one, up to its closing brace. -/
inductive Members : List (Option String × Json) → List Char → Prop where
  | last {m : Option String × Json} {s b : List Char} (h : Member m s) (hb : Blanks b) :
      Members [m] (s ++ b)
  | cons {m : Option String × Json} {ms : List (Option String × Json)} {s b b' t : List Char}
      (h : Member m s) (hb : Blanks b) (hb' : Blanks b') (ht : Members ms t) :
      Members (m :: ms) (s ++ (b ++ ',' :: (b' ++ t)))

end

/-- The characters of a document: a value with nothing but blanks around it. -/
inductive Document : Json → List Char → Prop where
  | mk {v : Json} {b s b' : List Char} (hb : Blanks b) (h : Spells v s) (hb' : Blanks b') :
      Document v (b ++ (s ++ b'))

end StoreSoak.Json
