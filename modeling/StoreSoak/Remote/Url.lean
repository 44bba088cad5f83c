import StoreSoak.Json.Parser
import StoreSoak.Text.Basic
import StoreSoak.Text.Utf8

/-!
Addresses written as URLs.

A URL has a scheme and then either an authority after two slashes, with user, host and port, or
none; then a path and a query. The parts are found by the rules of generic URLs: blanks at the ends
and tabulators and line ends anywhere are passed over, the scheme is put into lower case, the last
`@` before the path ends the user, a backslash after the port begins the path, and the dots in a
path are resolved, though they never lead out of a drive. Parts are kept as they are written;
`percentDecode` reads them.

* `Url.parse?` finds the parts, or nothing where there is no URL.
* `Url.queryPairs` reads the query as names and values.
-/

namespace StoreSoak.Remote

/-- The parts of a URL. -/
structure Url where
  scheme : List Char
  username : List Char
  /-- The password, where one is written. -/
  password : Option (List Char)
  /-- The host, unless it is empty or there is no authority. -/
  host : Option (List Char)
  port : Option Nat
  /-- Whether the path consists of segments, each after a slash. -/
  rooted : Bool
  /-- The segments of a rooted path, or one segment with all of another path. -/
  path : List (List Char)
  query : List Char
  deriving DecidableEq, Repr

namespace Url

/-! ### Cutting -/

/-- The parts before and after the first separator, if there is one. -/
def cutAt (sep : Char) (s : List Char) : Option (List Char × List Char) :=
  match s.dropWhile (· ≠ sep) with
  | [] => none
  | _ :: rest => some (s.takeWhile (· ≠ sep), rest)

/-- The characters that end an authority. -/
def endsAuthority (c : Char) : Bool :=
  c = '/' || c = '?' || c = '#'

/-- The text without blanks and control characters at its ends, and without tabulators and line
ends. -/
def clean (s : List Char) : List Char :=
  let blank (c : Char) : Bool := c.toNat ≤ 32
  ((s.dropWhile blank).reverse.dropWhile blank).reverse.filter fun c =>
    c ≠ '\t' && c ≠ '\n' && c ≠ '\r'

/-! ### Percent signs -/

/-- The bytes that a part stands for: two hexadecimal digits after a percent sign stand for a byte,
every other character for its own bytes. -/
def percentDecode : List Char → List UInt8
  | [] => []
  | '%' :: a :: b :: rest =>
    match Json.hexDigit? a, Json.hexDigit? b with
    | some x, some y => UInt8.ofNat (x * 16 + y) :: percentDecode rest
    | _, _ => Text.utf8 "%" ++ percentDecode (a :: b :: rest)
  | c :: rest => Text.utf8 (String.singleton c) ++ percentDecode rest

/-- A name or value of a query: a plus stands for a blank. -/
def formDecode (s : List Char) : String :=
  Text.ofUtf8Lossy (percentDecode (s.map fun c => if c = '+' then ' ' else c))

/-! ### Hosts -/

/-- A number from 0 to 255 in decimal, without leading zeros. -/
def isOctet (s : List Char) : Bool :=
  !s.isEmpty && s.length ≤ 3 && s.all Char.isDigit && Nat.ofDigitChars 10 s 0 < 256 &&
    (s.length = 1 || s.head? ≠ some '0')

/-- Four numbers from 0 to 255 with points between them. -/
def isIpv4 (s : List Char) : Bool :=
  let parts := Text.splitOn '.' s
  parts.length = 4 && parts.all isOctet

/-- A group of an IPv6 address: one to four hexadecimal digits. -/
def isGroup (s : List Char) : Bool :=
  !s.isEmpty && s.length ≤ 4 && s.all fun c => (Json.hexDigit? c).isSome

/-- How many groups a row of them makes up; an IPv4 address, which may come last, counts for two. -/
def groupCount (embedded : Bool) : List (List Char) → Option Nat
  | [] => some 0
  | [g] => if isGroup g then some 1 else if embedded && isIpv4 g then some 2 else none
  | g :: h :: rest => if isGroup g then (groupCount embedded (h :: rest)).map (· + 1) else none

/-- The parts before and after the first two colons in a row. -/
def cutAtGap : List Char → Option (List Char × List Char)
  | [] => none
  | ':' :: ':' :: rest => some ([], rest)
  | c :: rest => (cutAtGap rest).map fun r => (c :: r.1, r.2)

/-- The groups of one side of a gap, none if it is empty. -/
def groupsOf (s : List Char) : List (List Char) :=
  if s.isEmpty then [] else Text.splitOn ':' s

/-- Whether the text is an IPv6 address: eight groups, or fewer with one gap. -/
def isIpv6 (s : List Char) : Bool :=
  match cutAtGap s with
  | none => groupCount true (Text.splitOn ':' s) = some 8
  | some (l, r) =>
    match groupCount false (groupsOf l), groupCount true (groupsOf r) with
    | some m, some n => m + n ≤ 7
    | _, _ => false

/-- The characters that no host contains. -/
def isForbidden (c : Char) : Bool :=
  ['\x00', '\t', '\n', '\r', ' ', '#', '/', ':', '<', '>', '?', '@', '[', '\\', ']', '^', '|'].contains c

/-- Whether the text can be a host: an IPv6 address in brackets, or a name. -/
def isHost (s : List Char) : Bool :=
  match s with
  | '[' :: rest =>
    match rest.reverse with
    | ']' :: inner => isIpv6 inner.reverse
    | _ => false
  | _ => !s.any isForbidden

/-- The host up to a colon outside of brackets, and the rest with the colon. -/
def hostSplit (bracketed : Bool) : List Char → List Char × List Char
  | [] => ([], [])
  | c :: rest =>
    if c = ':' && !bracketed then ([], c :: rest)
    else
      let r := hostSplit (if c = '[' then true else if c = ']' then false else bracketed) rest
      (c :: r.1, r.2)

/-! ### Authorities -/

/-- The port after the host, and what comes after the port: nothing, or a colon with digits, which
may be missing. A backslash ends the digits and belongs to the path. -/
def port? : List Char → Option (Option Nat × List Char)
  | [] => some (none, [])
  | _ :: rest =>
    let digits := rest.takeWhile (· ≠ '\\')
    let after := rest.dropWhile (· ≠ '\\')
    if digits.isEmpty then some (none, after)
    else if digits.all Char.isDigit && Nat.ofDigitChars 10 digits 0 ≤ 65535 then
      some (some (Nat.ofDigitChars 10 digits 0), after)
    else none

/-- The part up to the last `@`, if there is one, and the rest. -/
def userSplit (s : List Char) : Option (List Char) × List Char :=
  match cutAt '@' s.reverse with
  | none => (none, s)
  | some (rest, user) => (some user.reverse, rest.reverse)

/-- User name and password in the part before the `@`. -/
def credentials (user : List Char) : List Char × Option (List Char) :=
  match cutAt ':' user with
  | none => (user, none)
  | some (name, []) => (name, none)
  | some (name, password) => (name, some password)

/-- What an authority says: the user, the host, unless it is empty, and the port. -/
structure Authority where
  username : List Char
  password : Option (List Char)
  host : Option (List Char)
  port : Option Nat
  /-- What is written after the port and belongs to the path. -/
  rest : List Char

/-- The parts of an authority, where `followed` says that something comes after it. An `@` that
nothing stands before and only a path behind, a port without a host and a user without one are
refused. -/
def authority? (followed : Bool) (s : List Char) : Option Authority := do
  let (user, named) := userSplit s
  let (username, password) := credentials (user.getD [])
  if user = some [] && named.isEmpty && followed then none
  else
    let (host, after) := hostSplit false named
    if !isHost host then none
    else if host.isEmpty && (!after.isEmpty || !username.isEmpty || password.isSome) then none
    else do
      let (port, rest) ← port? after
      return { username, password, host := if host.isEmpty then none else some host, port, rest }

/-! ### Paths -/

/-- The text with the percent spelling of the dot resolved. -/
def plainDots : List Char → List Char
  | '%' :: '2' :: c :: rest =>
    if c = 'e' || c = 'E' then '.' :: plainDots rest else '%' :: '2' :: plainDots (c :: rest)
  | c :: rest => c :: plainDots rest
  | [] => []

/-- Whether a segment names a drive: a letter and a colon or a bar, and either nothing more or a
backslash next. -/
def namesDrive : List Char → Bool
  | letter :: mark :: rest =>
    letter.isAlpha && (mark = ':' || mark = '|') && (rest.isEmpty || rest.head? = some '\\')
  | _ => false

/-- The segments of a path, the last one first, without the last one. A drive stays. -/
def goBack (done : List (List Char)) : List (List Char) :=
  match done with
  | [] => []
  | s :: above => if namesDrive s then s :: above else above

/-- Resolves the segments of a path: one dot stands for nothing, two take a segment away unless it
names a drive. The segments so far come last one first. -/
def resolve (done : List (List Char)) : List (List Char) → List (List Char)
  | [] => done.reverse
  | s :: rest =>
    let dots := plainDots s
    if dots = ['.', '.'] then
      if rest.isEmpty then ([] :: goBack done).reverse else resolve (goBack done) rest
    else if dots = ['.'] then
      if rest.isEmpty then ([] :: done).reverse else resolve done rest
    else resolve (s :: done) rest

/-- The segments of a path; what is not after a slash is after one all the same. -/
def segments (s : List Char) : List (List Char) :=
  match s with
  | [] => []
  | '/' :: rest => resolve [] (Text.splitOn '/' rest)
  | _ => resolve [] (Text.splitOn '/' s)

/-! ### The whole -/

/-- The scheme in lower case and what comes after its colon. -/
def scheme? (s : List Char) : Option (List Char × List Char) := do
  let (scheme, rest) ← cutAt ':' s
  let first ← scheme.head?
  if first.isAlpha && scheme.all (fun c => c.isAlphanum || c = '+' || c = '-' || c = '.') then
    return (scheme.map Char.toLower, rest)
  else none

/-- The path and the query at the end of a URL, without what follows a number sign. -/
def pathAndQuery (s : List Char) : List Char × List Char :=
  let s := s.takeWhile (· ≠ '#')
  (s.takeWhile (· ≠ '?'), (s.dropWhile (· ≠ '?')).drop 1)

/-- The parts of a URL. -/
def parseChars? (s : List Char) : Option Url := do
  let (scheme, rest) ← scheme? (clean s)
  match rest with
  | '/' :: '/' :: rest =>
    let written := rest.takeWhile fun c => !endsAuthority c
    let after := rest.dropWhile fun c => !endsAuthority c
    let a ← authority? (!after.isEmpty) written
    let (path, query) := pathAndQuery (a.rest ++ after)
    return {
      scheme, username := a.username, password := a.password, host := a.host, port := a.port
      rooted := true, path := segments path, query }
  | _ =>
    let (path, query) := pathAndQuery rest
    let rooted := rest.head? = some '/'
    return { scheme, username := [], password := none, host := none, port := none, rooted, query
             path := if rooted then segments path else [path] }

/-- The parts of a URL, if the text is one. -/
def parse? (s : String) : Option Url :=
  parseChars? s.toList

/-- The path as one text, a slash before each segment of a rooted path. -/
def pathChars (u : Url) : List Char :=
  if u.rooted then u.path.flatMap fun s => '/' :: s else u.path.flatten

/-- The names and values of the query, in order. -/
def queryPairs (u : Url) : List (String × String) :=
  ((Text.splitOn '&' u.query).filter fun p => !p.isEmpty).map fun p =>
    match cutAt '=' p with
    | none => (formDecode p, "")
    | some (name, value) => (formDecode name, formDecode value)

/-- The value of a name in the query, the last one if there are several. -/
def query? (u : Url) (name : String) : Option String :=
  (u.queryPairs.reverse.find? fun p => p.1 = name).map Prod.snd

end Url

end StoreSoak.Remote
