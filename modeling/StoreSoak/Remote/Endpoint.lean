import StoreSoak.Remote.Failure
import StoreSoak.Remote.Url
import StoreSoak.Text.Basic

/-!
Where a client connects to.

An address is a URL, or a host with a port, which `connectionUrl` turns into one that names the
database. Two kinds of URLs are understood: those of hosts, which name the database in their path,
and those of sockets in the file system, which name it in their query.

* `Endpoint.ofUrl?` reads an endpoint off a URL or says what is wrong with it.
-/

namespace StoreSoak.Remote

/-- Whether a row of characters stands in another one. -/
def occursIn (part : List Char) : List Char → Bool
  | [] => part.isEmpty
  | c :: rest => part.isPrefixOf (c :: rest) || occursIn part rest

/-- The URL of an address: the address itself if it is one, else that of the host with the database
for its path. -/
def connectionUrl (address : String) (database : Int) : String :=
  if occursIn [':', '/', '/'] address.toList then address
  else "redis://" ++ address ++ "/" ++ String.ofList (Text.integer database)

/-- What can be wrong with a URL. -/
inductive AddressFault where
  | noUrl
  | noHost
  | noPath
  | noEncryption
  | badDatabase
  | badUsername
  | badPassword
  | badProtocol (value : String)
  deriving DecidableEq, Repr

/-- The fault as a failure of the client. -/
def AddressFault.toFailure : AddressFault → Failure
  | .noUrl => .described .invalidConfig "Redis URL did not parse" none
  | .noHost => .described .invalidConfig "Missing hostname" none
  | .noPath => .described .invalidConfig "Missing path" none
  | .noEncryption =>
    .described .invalidConfig "can't connect with TLS, the feature is not enabled" none
  | .badDatabase => .described .invalidConfig "Invalid database number" none
  | .badUsername => .described .invalidConfig "Username is not valid UTF-8 string" none
  | .badPassword => .described .invalidConfig "Password is not valid UTF-8 string" none
  | .badProtocol value => .described .invalidConfig "Invalid protocol version" (some value)

/-- The place of a server. -/
inductive Place where
  | host (name : String) (port : Nat)
  | socket (path : List UInt8)
  deriving DecidableEq, Repr

/-- Where to connect to, and with what. -/
structure Endpoint where
  place : Place
  database : Int
  username : Option String
  password : Option String
  /-- Whether the newer protocol is to be spoken. -/
  modern : Bool
  deriving DecidableEq, Repr

namespace Endpoint

/-- The port when none is given. -/
def defaultPort : Nat := 6379

/-- The text without slashes at its ends. -/
def withoutSlashes (s : List Char) : List Char :=
  ((s.dropWhile (· = '/')).reverse.dropWhile (· = '/')).reverse

/-- The database that a path names: zero if it is empty. -/
def databaseOfPath (s : List Char) : Except AddressFault Int :=
  let s := withoutSlashes s
  if s.isEmpty then .ok 0
  else
    match Text.integer? s with
    | some i => .ok i
    | none => .error .badDatabase

/-- The protocol that a query asks for. -/
def protocolOf (u : Url) : Except AddressFault Bool :=
  match u.query? "protocol" with
  | none => .ok false
  | some v =>
    if v = "2" || v = "resp2" then .ok false
    else if v = "3" || v = "resp3" then .ok true
    else .error (.badProtocol v)

/-- A part of a URL as text, if it is text. -/
def textOf (fault : AddressFault) (s : List Char) : Except AddressFault String :=
  match Text.ofUtf8 (Url.percentDecode s) with
  | .ok t => .ok t
  | .error _ => .error fault

/-- The endpoint that a URL of a host names. -/
def ofHostUrl (u : Url) : Except AddressFault Endpoint := do
  let host ← match u.host with
    | some h => Except.ok (String.ofList h)
    | none => .error .noHost
  if u.scheme = "rediss".toList then .error .noEncryption
  else
    let database ← databaseOfPath u.pathChars
    let username ← if u.username.isEmpty then Except.ok none
      else (textOf .badUsername u.username).map some
    let password ← match u.password with
      | none => Except.ok none
      | some p => (textOf .badPassword p).map some
    let modern ← protocolOf u
    return { place := .host host (u.port.getD defaultPort), database, username, password, modern }

/-- The path of a socket. One that ends like the name of a drive, with a letter and a colon or a
bar, ends in a slash. -/
def socketPath (u : Url) : List UInt8 :=
  let path := Url.percentDecode u.pathChars
  match path.reverse with
  | mark :: letter :: _ :: _ =>
    if (Char.ofUInt8 letter).isAlpha && (mark = 58 || mark = 124) then path ++ [47] else path
  | _ => path

/-- The endpoint that a URL of a socket names. -/
def ofSocketUrl (u : Url) : Except AddressFault Endpoint := do
  let isLocal := u.host.isNone || u.host = some "localhost".toList
  if !u.rooted || u.path.isEmpty || !isLocal then .error .noPath
  else
    let database ← match u.query? "db" with
      | none => Except.ok 0
      | some v =>
        match Text.integer? v.toList with
        | some i => .ok i
        | none => .error .badDatabase
    let modern ← protocolOf u
    return {
      place := .socket (socketPath u), database
      username := u.query? "user", password := u.query? "pass", modern }

/-- The endpoint that a URL names, or what is wrong with it. -/
def ofUrl? (s : String) : Except AddressFault Endpoint :=
  match Url.parse? s with
  | none => .error .noUrl
  | some u =>
    let scheme := String.ofList u.scheme
    if scheme = "redis" || scheme = "rediss" then ofHostUrl u
    else if scheme = "redis+unix" || scheme = "unix" then ofSocketUrl u
    else .error .noUrl

end Endpoint

end StoreSoak.Remote
