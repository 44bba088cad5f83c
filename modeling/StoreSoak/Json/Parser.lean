import StoreSoak.Json

/-!
Reading JSON documents.

Every reader takes what remains of the text and gives a value with the rest. A document is one value
with nothing but blanks around it. Numbers are kept by their characters. A string is read in two
phases: `pieces` finds its end and its escapes, `assemble` joins the halves of surrogate pairs; a
half that stands alone makes it a string without text.

* `value` reads a value, `items` and `members` what is left of a container.
* `parse?` reads a document. Every step of the readers takes a character, so the length of the text
  bounds their number.
-/

namespace StoreSoak.Json

/-- The four characters that may stand between the parts of a document. -/
def isBlank (c : Char) : Bool :=
  c = ' ' || c = '\t' || c = '\n' || c = '\r'

/-- What remains after the blanks. -/
def skip (s : List Char) : List Char :=
  s.dropWhile isBlank

/-- What remains after the given characters, if the text begins with them. -/
def expect : List Char → List Char → Option (List Char)
  | [], s => some s
  | _ :: _, [] => none
  | c :: cs, d :: s => if c = d then expect cs s else none

/-! ### Numbers -/

/-- A row of digits, at least one, and the rest. -/
def digits? (s : List Char) : Option (List Char × List Char) :=
  let ds := s.takeWhile Char.isDigit
  if ds.isEmpty then none else some (ds, s.dropWhile Char.isDigit)

/-- The whole part of a number: a zero alone, or digits that begin with none. -/
def whole? : List Char → Option (List Char × List Char)
  | '0' :: rest => some (['0'], rest)
  | s => digits? s

/-- The fraction of a number, which may be missing. -/
def fraction? : List Char → Option (List Char × List Char)
  | '.' :: rest => (digits? rest).map fun r => ('.' :: r.1, r.2)
  | s => some ([], s)

/-- The exponent of a number, which may be missing. -/
def exponent? : List Char → Option (List Char × List Char)
  | c :: rest =>
    if c = 'e' || c = 'E' then
      match rest with
      | d :: rest =>
        if d = '+' || d = '-' then (digits? rest).map fun r => (c :: d :: r.1, r.2)
        else (digits? (d :: rest)).map fun r => (c :: r.1, r.2)
      | [] => none
    else some ([], c :: rest)
  | [] => some ([], [])

/-- A number without its sign. -/
def unsigned? (s : List Char) : Option (List Char × List Char) := do
  let (w, s) ← whole? s
  let (f, s) ← fraction? s
  let (e, s) ← exponent? s
  return (w ++ f ++ e, s)

/-- A number, by its characters, and the rest. -/
def number? : List Char → Option (List Char × List Char)
  | '-' :: rest => (unsigned? rest).map fun r => ('-' :: r.1, r.2)
  | s => unsigned? s

/-! ### Strings -/

/-- What a string is made of: characters, and code units written in hexadecimal. -/
inductive Piece where
  | char (c : Char)
  | unit (n : Nat)
  deriving DecidableEq, Repr

/-- The value of a hexadecimal digit. -/
def hexDigit? (c : Char) : Option Nat :=
  if '0' ≤ c ∧ c ≤ '9' then some (c.toNat - '0'.toNat)
  else if 'a' ≤ c ∧ c ≤ 'f' then some (c.toNat - 'a'.toNat + 10)
  else if 'A' ≤ c ∧ c ≤ 'F' then some (c.toNat - 'A'.toNat + 10)
  else none

/-- The character that a letter after the backslash stands for. -/
def unescape? (c : Char) : Option Char :=
  if c = '"' ∨ c = '\\' ∨ c = '/' then some c
  else if c = 'b' then some '\x08'
  else if c = 'f' then some '\x0c'
  else if c = 'n' then some '\n'
  else if c = 'r' then some '\r'
  else if c = 't' then some '\t'
  else none

/-- The code unit that four hexadecimal digits write. -/
def unit? (a b c d : Char) : Option Nat := do
  let a ← hexDigit? a
  let b ← hexDigit? b
  let c ← hexDigit? c
  let d ← hexDigit? d
  return ((a * 16 + b) * 16 + c) * 16 + d

/-- The pieces of a string up to its closing quote, and the rest. -/
def pieces : List Char → Option (List Piece × List Char)
  | [] => none
  | '"' :: rest => some ([], rest)
  | '\\' :: 'u' :: a :: b :: c :: d :: rest => do
    let n ← unit? a b c d
    let (ps, rest) ← pieces rest
    return (.unit n :: ps, rest)
  | '\\' :: e :: rest => do
    let c ← unescape? e
    let (ps, rest) ← pieces rest
    return (.char c :: ps, rest)
  | c :: rest =>
    if c.toNat < 32 || c = '\\' then none
    else do
      let (ps, rest) ← pieces rest
      return (.char c :: ps, rest)

/-- The first half of a surrogate pair. -/
def isHigh (n : Nat) : Bool :=
  0xd800 ≤ n && n ≤ 0xdbff

/-- The second half of a surrogate pair. -/
def isLow (n : Nat) : Bool :=
  0xdc00 ≤ n && n ≤ 0xdfff

/-- The characters that the pieces name; none if half a surrogate pair stands alone. -/
def assemble : List Piece → Option (List Char)
  | [] => some []
  | .char c :: rest => (assemble rest).map (c :: ·)
  | .unit n :: .unit m :: rest =>
    if isHigh n then
      if isLow m then
        (assemble rest).map (Char.ofNat (0x10000 + (n - 0xd800) * 0x400 + (m - 0xdc00)) :: ·)
      else none
    else if isLow n then none
    else (assemble (.unit m :: rest)).map (Char.ofNat n :: ·)
  | .unit n :: rest =>
    if isHigh n || isLow n then none else (assemble rest).map (Char.ofNat n :: ·)

/-- A string whose opening quote has been read, by its text if it has one, and the rest. -/
def stringRest (s : List Char) : Option (Option String × List Char) := do
  let (ps, rest) ← pieces s
  return ((assemble ps).map String.ofList, rest)

/-- A string and the rest. -/
def string? (s : List Char) : Option (Option String × List Char) := do
  let rest ← expect ['"'] s
  stringRest rest

/-! ### Values -/

mutual

/-- A value after blanks, and the rest, in at most `fuel` steps. -/
def value : Nat → List Char → Option (Json × List Char)
  | 0, _ => none
  | fuel + 1, s =>
    match skip s with
    | 'n' :: rest => (expect ['u', 'l', 'l'] rest).map fun r => (.null, r)
    | 't' :: rest => (expect ['r', 'u', 'e'] rest).map fun r => (.bool true, r)
    | 'f' :: rest => (expect ['a', 'l', 's', 'e'] rest).map fun r => (.bool false, r)
    | '"' :: rest => (stringRest rest).map fun r => (.string r.1, r.2)
    | '[' :: rest =>
      match skip rest with
      | ']' :: rest => some (.array [], rest)
      | rest => (items fuel rest).map fun r => (.array r.1, r.2)
    | '\x7b' :: rest =>
      match skip rest with
      | '\x7d' :: rest => some (.object [], rest)
      | rest => (members fuel rest).map fun r => (.object r.1, r.2)
    | s => (number? s).map fun r => (.number r.1, r.2)

/-- The values up to the end of an array, and the rest. -/
def items : Nat → List Char → Option (List Json × List Char)
  | 0, _ => none
  | fuel + 1, s => do
    let (v, s) ← value fuel s
    match skip s with
    | ']' :: rest => some ([v], rest)
    | ',' :: rest => (items fuel rest).map fun r => (v :: r.1, r.2)
    | _ => none

/-- The members up to the end of an object, and the rest. -/
def members : Nat → List Char → Option (List (Option String × Json) × List Char)
  | 0, _ => none
  | fuel + 1, s => do
    let (name, s) ← string? (skip s)
    let s ← expect [':'] (skip s)
    let (v, s) ← value fuel s
    match skip s with
    | '\x7d' :: rest => some ([(name, v)], rest)
    | ',' :: rest => (members fuel rest).map fun r => ((name, v) :: r.1, r.2)
    | _ => none

end

/-- The value that a row of characters writes. -/
def parseChars? (s : List Char) : Option Json := do
  let (v, rest) ← value (s.length + 1) s
  if (skip rest).isEmpty then some v else none

/-- The value that a text writes. -/
def parse? (s : String) : Option Json :=
  parseChars? s.toList

end StoreSoak.Json
