import StoreSoak.Proofs.Lua.Program

/-!
Reading programs.

A text is cut into tokens, and a program is read off these by descent, with so many steps at most. A
dotted name is one token. A sum and a comparison have two sides; brackets lead on from there.

* `tokens?` cuts a text.
* `Reader.expression?` and `Reader.block?` read an expression and statements off the front.
* `read` reads a whole program, or nothing where the text is none.
-/

namespace StoreSoak.Lua

/-- A token. -/
inductive Token where
  | word (s : String)
  | number (n : ℕ)
  | text (s : String)
  | symbol (s : String)
  deriving DecidableEq

namespace Token

/-- The words that are no names. -/
def keywords : List String :=
  ["and", "break", "do", "else", "elseif", "end", "false", "for", "function", "if", "in", "local",
    "nil", "not", "or", "repeat", "return", "then", "true", "until", "while"]

/-- The mark that texts stand between. -/
def mark : Char := Char.ofNat 39

/-- The characters that a name goes on with. -/
def goesOn (c : Char) : Bool :=
  c.isAlphanum || c = '_' || c = '.'

/-- The first token of a text that begins with a given character, and what comes after it. -/
def first? (c : Char) (rest : List Char) : Option (Token × List Char) :=
  if c.isAlpha || c = '_' then
    some (.word (String.ofList (c :: rest.takeWhile goesOn)), rest.dropWhile goesOn)
  else if c.isDigit then
    some (.number (Nat.ofDigitChars 10 (c :: rest.takeWhile Char.isDigit) 0),
      rest.dropWhile Char.isDigit)
  else if c = mark then
    match rest.dropWhile (· ≠ mark) with
    | [] => none
    | _ :: after => some (.text (String.ofList (rest.takeWhile (· ≠ mark))), after)
  else
    match c, rest with
    | '=', '=' :: after => some (.symbol "==", after)
    | '~', '=' :: after => some (.symbol "~=", after)
    | _, _ =>
      if ['=', '+', '#', '(', ')', '[', ']', ','].contains c then
        some (.symbol (String.singleton c), rest)
      else none

/-- The tokens of a text, in so many steps at most. -/
def cut? : ℕ → List Char → Option (List Token)
  | _, [] => some []
  | 0, _ :: _ => none
  | n + 1, c :: rest =>
    if c.isWhitespace then cut? n rest
    else (first? c rest).bind fun r => (cut? n r.2).map (r.1 :: ·)

end Token

/-- The tokens of a text. Every step takes a character away. -/
def tokens? (s : String) : Option (List Token) :=
  Token.cut? s.length s.toList

namespace Reader

/-- The rest after a symbol. -/
def skip? (symbol : String) : List Token → Option (List Token)
  | .symbol s :: rest => if s = symbol then some rest else none
  | _ => none

/-- The rest after a word. -/
def pass? (word : String) : List Token → Option (List Token)
  | .word s :: rest => if s = word then some rest else none
  | _ => none

mutual

/-- Reads an expression. -/
def expression? : ℕ → List Token → Option (Expr × List Token)
  | 0, _ => none
  | n + 1, ts => do
    let (a, ts) ← sum? n ts
    match ts with
    | .symbol "==" :: ts => do
      let (b, ts) ← sum? n ts
      return (.equal a b, ts)
    | .symbol "~=" :: ts => do
      let (b, ts) ← sum? n ts
      return (.unequal a b, ts)
    | _ => return (a, ts)

/-- Reads a sum, or what can be a side of it. -/
def sum? : ℕ → List Token → Option (Expr × List Token)
  | 0, _ => none
  | n + 1, ts => do
    let (a, ts) ← member? n ts
    match ts with
    | .symbol "+" :: ts => do
      let (b, ts) ← member? n ts
      return (.plus a b, ts)
    | _ => return (a, ts)

/-- Reads a length, or an item of a row, or something simple. -/
def member? : ℕ → List Token → Option (Expr × List Token)
  | 0, _ => none
  | n + 1, .symbol "#" :: ts => do
    let (a, ts) ← member? n ts
    return (.length a, ts)
  | n + 1, ts => do
    let (a, ts) ← simple? n ts
    match ts with
    | .symbol "[" :: ts => do
      let (b, ts) ← expression? n ts
      let ts ← skip? "]" ts
      return (.item a b, ts)
    | _ => return (a, ts)

/-- Reads a number, a text, a name, a call or an expression between brackets. -/
def simple? : ℕ → List Token → Option (Expr × List Token)
  | 0, _ => none
  | _ + 1, .number k :: ts => some (.number k, ts)
  | _ + 1, .text s :: ts => some (.text s, ts)
  | n + 1, .symbol "(" :: ts => do
    let (a, ts) ← expression? n ts
    let ts ← skip? ")" ts
    return (a, ts)
  | n + 1, .word f :: .symbol "(" :: ts => do
    let (arguments, ts) ← arguments? n ts
    return (.call f arguments, ts)
  | _ + 1, .word x :: ts => if Token.keywords.contains x then none else some (.name x, ts)
  | _ + 1, _ => none

/-- Reads the arguments of a call, at least one, up to the bracket. -/
def arguments? : ℕ → List Token → Option (List Expr × List Token)
  | 0, _ => none
  | n + 1, ts => do
    let (a, ts) ← expression? n ts
    match ts with
    | .symbol "," :: ts => do
      let (rest, ts) ← arguments? n ts
      return (a :: rest, ts)
    | .symbol ")" :: ts => return ([a], ts)
    | _ => none

end

mutual

/-- Reads a statement. -/
def statement? : ℕ → List Token → Option (Statement × List Token)
  | 0, _ => none
  | n + 1, .word "local" :: .word x :: .symbol "=" :: ts => do
    let (e, ts) ← expression? n ts
    return (.define x e, ts)
  | n + 1, .word "if" :: ts => do
    let (condition, ts) ← expression? n ts
    let ts ← pass? "then" ts
    let (body, ts) ← block? n ts
    let ts ← pass? "end" ts
    return (.test condition body, ts)
  | n + 1, .word "for" :: .word x :: .symbol "=" :: ts => do
    let (first, ts) ← expression? n ts
    let ts ← skip? "," ts
    let (last, ts) ← expression? n ts
    let ts ← pass? "do" ts
    let (body, ts) ← block? n ts
    let ts ← pass? "end" ts
    return (.count x first last body, ts)
  | n + 1, .word "return" :: ts => do
    let (e, ts) ← expression? n ts
    return (.answer e, ts)
  | n + 1, ts => do
    match ← expression? n ts with
    | (.call f arguments, ts) => return (.perform (.call f arguments), ts)
    | _ => none

/-- Reads statements up to the end of a block or of the program. -/
def block? : ℕ → List Token → Option (List Statement × List Token)
  | 0, _ => none
  | _ + 1, [] => some ([], [])
  | _ + 1, .word "end" :: ts => some ([], .word "end" :: ts)
  | n + 1, ts => do
    let (s, ts) ← statement? n ts
    let (rest, ts) ← block? n ts
    return (s :: rest, ts)

end

end Reader

/-- The program that a text is. Every step of reading is one of seven down to the next token. -/
def read (s : String) : Option (List Statement) := do
  let ts ← tokens? s
  match ← Reader.block? (7 * ts.length + 7) ts with
  | (program, []) => return program
  | _ => none

end StoreSoak.Lua
