import StoreSoak.Remote.Client

/-!
A server that answers by a script.

The script gives a turn for every command in order, and one for the selection of a database. Once
the script is at its end, or asks for silence, the server keeps silent for ever and takes no more
commands. It lives at one socket, if it lives anywhere; no directory accepts a connection, and no
host can be reached.

* `Scripted.network` is the network with this server alone.
-/

namespace StoreSoak.Remote

/-- What a scripted server does about a command. -/
inductive Turn where
  | reply (v : Value)
  /-- It takes the command and goes away. -/
  | leave
  /-- It never answers again. -/
  | silence

/-- A server that answers by a script. -/
structure Scripted where
  turns : List Turn
  /-- What it does about the selection of a database. -/
  selection : Turn
  silent : Bool

namespace Scripted

/-- The response of a turn, and the server after it. -/
def act (s : Scripted) : Turn → Response × Scripted
  | .reply v => (.reply v, s)
  | .leave => (.gone, s)
  | .silence => (.silence, { s with silent := true })

/-- The response to a command, and the server after it. -/
def answer (c : Command) (s : Scripted) : Response × Scripted :=
  if s.silent then (.ignored, s)
  else if c.head? = some "SELECT" then s.act s.selection
  else
    match s.turns with
    | [] => s.act .silence
    | t :: rest => { s with turns := rest }.act t

/-- The fault of a place where nobody accepts a connection. -/
def refused : IoFault := ⟨.connectionRefused, some "Connection refused (os error 111)"⟩

/-- The fault of a host that there is no way to: there is neither a network nor somebody who knows
the names of hosts, the name of this one apart. -/
def noWay (host : String) : IoFault :=
  let h := host.toList
  let parts := Text.splitOn '.' h
  if h.head? = some '[' then
    ⟨.addressNotAvailable, some "Cannot assign requested address (os error 99)"⟩
  else if host = "localhost" || (parts.length ≤ 4 && parts.all Url.isOctet) then
    ⟨.networkUnreachable, some "Network is unreachable (os error 101)"⟩
  else
    ⟨.other, some "failed to lookup address information: Temporary failure in name resolution"⟩

/-- The network with a scripted server at a socket, if there is one. -/
def network (socket : Option String) (s : Scripted) : Network Scripted where
  dial
    | .socket path =>
      match Path.follow (socket.elim Tree.bare fun p => Tree.ofSocket (Text.utf8 p)) path with
      | .error f => .error f
      | .ok .directory => .error refused
      | .ok .socket => .ok s
    | .host name _ => .error (noWay name)
  answer := answer

end Scripted

end StoreSoak.Remote
