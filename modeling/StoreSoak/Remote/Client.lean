import StoreSoak.Notice
import StoreSoak.Remote.Endpoint
import StoreSoak.Remote.Path
import StoreSoak.Remote.Script
import StoreSoak.Remote.Value
import StoreSoak.Run.Record

/-!
The client of a remote store.

A client sends commands down one pipe to a server and waits for each reply, up to a limit. The
server is a parameter: it replies, goes away, or keeps silent. Once it has gone away the pipe is
broken, and nothing more is sent.

* `Pipe.exchange` sends a command, `Pipe.exchangeAll` several in a row; `Pipe.send` also turns an
  error in the reply into a failure.
* `set`, `get`, `keyExists` and `execute` are the calls on the database that was selected at
  connect.
* `connect` opens a pipe to an address; `connection` is what a run needs of it. The client makes
  itself known and selects its database in one go, and looks at the replies when all are there. A
  server that takes a password but no user name with it is greeted once more, without the name.

A high priority is noted and changes nothing else.
-/

namespace StoreSoak.Remote

/-- A command: its name and its arguments. -/
abbrev Command := List String

/-- What comes back after a command. -/
inductive Response where
  | reply (v : Value)
  /-- The server has gone away. -/
  | gone
  /-- Nothing comes back in time. -/
  | silence
  /-- Nothing comes back in time, and the command is left where it is. -/
  | ignored

/-- The places that can be connected to, and the servers there. -/
structure Network (σ : Type) where
  dial : Place → Except IoFault σ
  answer : Command → σ → Response × σ

/-- Connects to a place. The path of a socket has to fit into an address first. -/
def Network.reach {σ : Type} (net : Network σ) (place : Place) : Except IoFault σ :=
  match place with
  | .host _ _ => net.dial place
  | .socket path =>
    match Path.fault? path with
    | some f => .error f
    | none => net.dial place

/-- A pipe to a server, with the commands that reached it and the notices made, the last ones
first. -/
structure Pipe (σ : Type) where
  server : σ
  broken : Bool
  sent : List Command
  notices : List Notice

/-- Why there is no answer to a call. -/
inductive Trouble where
  | failure (f : Failure)
  | silence

/-- What the trouble means to the harness. -/
def Trouble.toStoreError (limit : Duration) : Trouble → StoreError
  | .failure f => f.toStoreError
  | .silence => .timeout limit

/-- The trouble with a server that has gone away. -/
def Trouble.brokenPipe : Trouble := .failure (.io ⟨.brokenPipe, none⟩)

/-- Whether the server does not know the script. -/
def Trouble.isNoScript : Trouble → Bool
  | .failure (.described .noScript _ _) => true
  | _ => false

namespace Pipe

variable {σ : Type}

/-- The pipe with one more notice. -/
def note (p : Pipe σ) (n : Notice) : Pipe σ :=
  { p with notices := n :: p.notices }

/-- Sends a command and waits for the reply, whatever it is. -/
def exchange (net : Network σ) (p : Pipe σ) (c : Command) : Except Trouble Value × Pipe σ :=
  if p.broken then (.error .brokenPipe, p)
  else
    let a := net.answer c p.server
    let p := { p with server := a.2 }
    let q := { p with sent := c :: p.sent }
    match a.1 with
    | .reply v => (.ok v, q)
    | .gone => (.error .brokenPipe, { q with broken := true })
    | .silence => (.error .silence, q)
    | .ignored => (.error .silence, p)

/-- Sends commands in a row and waits for all the replies, whatever they are. -/
def exchangeAll (net : Network σ) (p : Pipe σ) :
    List Command → Except Trouble (List Value) × Pipe σ
  | [] => (.ok [], p)
  | c :: rest =>
    let a := p.exchange net c
    match a.1 with
    | .error e => (.error e, a.2)
    | .ok v =>
      let b := a.2.exchangeAll net rest
      (b.1.map (v :: ·), b.2)

/-- Sends a command and waits for a reply without an error in it. -/
def send (net : Network σ) (p : Pipe σ) (c : Command) : Except Trouble Value × Pipe σ :=
  let a := p.exchange net c
  match a.1 with
  | .error e => (.error e, a.2)
  | .ok v =>
    match v.error? with
    | some s => (.error (.failure (Failure.ofServer s)), a.2)
    | none => (.ok v, a.2)

/-- Runs the script for a transaction. If the server does not know the script it is given it, and
the call is made once more. -/
def invoke (net : Network σ) (p : Pipe σ) (t : Transaction) : Except Trouble Value × Pipe σ :=
  let a := p.send net (Script.call t)
  match a.1 with
  | .ok v => (.ok v, a.2)
  | .error e =>
    if e.isNoScript then
      let l := a.2.send net Script.load
      match l.1 with
      | .error e => (.error e, l.2)
      | .ok _ => l.2.send net (Script.call t)
    else (.error e, a.2)

/-- A call, with its reply read. -/
def call {α : Type} (limit : Duration) (read : Value → Except Failure α)
    (a : Except Trouble Value × Pipe σ) : Except StoreError α × Pipe σ :=
  match a.1 with
  | .error e => (.error (e.toStoreError limit), a.2)
  | .ok v =>
    match read v with
    | .ok x => (.ok x, a.2)
    | .error f => (.error f.toStoreError, a.2)

/-- Writes a value and answers with the one it replaces; without waiting for it, with none. -/
def set (net : Network σ) (limit : Duration) (p : Pipe σ) (key value : String) (f : Flags) :
    Except StoreError (Option String) × Pipe σ :=
  let p := if f.highPriority then p.note (.urgentSet key) else p
  if f.fireAndForget then call limit (fun _ => .ok none) (p.send net ["SET", key, value])
  else call limit Value.text? (p.send net ["SET", key, value, "GET"])

/-- Reads a value. -/
def get (net : Network σ) (limit : Duration) (p : Pipe σ) (key : String) :
    Except StoreError (Option String) × Pipe σ :=
  call limit Value.text? (p.send net ["GET", key])

/-- Whether a key has a value. -/
def keyExists (net : Network σ) (limit : Duration) (p : Pipe σ) (key : String) :
    Except StoreError Bool × Pipe σ :=
  call limit Value.truth? (p.send net ["EXISTS", key])

/-- Whether the script committed. -/
def committed (v : Value) : Except StoreError Bool :=
  match v with
  | .int 1 => .ok true
  | .int 0 => .ok false
  | v => .error (.operation ("unexpected transaction reply: " ++ v.debug))

/-- Commits a transaction and answers whether its conditions held. -/
def execute (net : Network σ) (limit : Duration) (p : Pipe σ) (t : Transaction) :
    Except StoreError Bool × Pipe σ :=
  let p := if t.writes.any fun w => w.flags.highPriority then p.note .urgentTransaction else p
  let a := p.invoke net t
  match a.1 with
  | .error e => (.error (e.toStoreError limit), a.2)
  | .ok v => (committed v, a.2)

end Pipe

/-! ### Opening -/

/-- The trouble with a server that goes away while the connection is being opened. -/
def terminated : Failure :=
  .described .io "Multiplexed connection driver unexpectedly terminated" none

/-- The command that makes the client known to the server, if it has to be: a greeting for the newer
protocol, a password for the older one, with the user name where it is wanted. -/
def introduction (e : Endpoint) (named : Bool) : Option Command :=
  if e.modern then
    some (["HELLO", "3"] ++ match e.password with
      | some p => ["AUTH", e.username.getD "default", p]
      | none => [])
  else e.password.map fun p => "AUTH" :: ((if named then e.username.toList else []) ++ [p])

/-- The command that selects the database, unless it is the one that is selected anyway. -/
def selection (e : Endpoint) : Option Command :=
  if e.database = 0 then none
  else some ["SELECT", String.ofList (Text.integer e.database)]

/-- How a server takes the introduction. -/
inductive Welcome where
  | accepted
  /-- It takes a password alone. -/
  | nameless
  deriving DecidableEq, Repr

/-- What the server says to a password that comes with more or less than it takes. -/
def wrongCount : List Char := "wrong number of arguments for 'auth' command".toList

/-- What the reply to a greeting means. -/
def acceptGreeting (v : Value) : Except Failure Welcome :=
  match v with
  | .error s =>
    let f := Failure.ofServer s
    if "unknown command `HELLO`".toList.isPrefixOf (f.detail.getD "").toList then
      .error (.described .resp3Unsupported
        "Redis Server doesn't support HELLO command therefore resp3 cannot be used" none)
    else .error f
  | _ => .ok .accepted

/-- What the reply to a password means. -/
def acceptPassword (v : Value) : Except Failure Welcome :=
  match v with
  | .error s =>
    if occursIn wrongCount ((Failure.ofServer s).detail.getD "").toList then .ok .nameless
    else .error (.described .authentication "Password authentication failed" none)
  | .status "OK" => .ok .accepted
  | _ =>
    .error (.described .response
      "Redis server refused to authenticate, returns Ok() != Value::Okay" none)

/-- What the reply to the selection means. -/
def acceptSelection (v : Value) : Except Failure Unit :=
  match v with
  | .error s =>
    .error (.described .response "Redis server refused to switch database"
      (Failure.ofServer s).detail)
  | _ => .ok ()

/-- What the replies to the opening commands mean. The selection is looked at only if the
introduction is accepted. -/
def acceptOpening (e : Endpoint) (replies : List Value) : Except Failure Welcome :=
  let introduced : Except Failure Welcome × List Value :=
    match introduction e true, replies with
    | some _, v :: rest => (if e.modern then acceptGreeting v else acceptPassword v, rest)
    | _, rest => (.ok .accepted, rest)
  match introduced with
  | (.ok .accepted, v :: _) => (acceptSelection v).map fun _ => .accepted
  | (w, _) => w

/-- Sends the opening commands and looks at the replies. -/
def greet {σ : Type} (net : Network σ) (limit : Duration) (e : Endpoint) (named : Bool)
    (p : Pipe σ) : Except StoreError Welcome × Pipe σ :=
  let a := p.exchangeAll net ((introduction e named).toList ++ (selection e).toList)
  match a.1 with
  | .error .silence => (.error (.timeout limit), a.2)
  | .error (.failure _) => (.error terminated.toConnectError, a.2)
  | .ok replies =>
    match acceptOpening e replies with
    | .ok w => (.ok w, a.2)
    | .error f => (.error f.toConnectError, a.2)

/-- Makes the client known and selects the database, a second time without the user name if the
server asks for that. -/
def settle {σ : Type} (net : Network σ) (limit : Duration) (e : Endpoint) (p : Pipe σ) :
    Except StoreError Unit × Pipe σ :=
  let a := greet net limit e true p
  match a.1 with
  | .error err => (.error err, a.2)
  | .ok .accepted => (.ok (), a.2)
  | .ok .nameless =>
    let b := greet net limit e false a.2
    (b.1.map fun _ => (), b.2)

/-- How a pipe was opened: whether it can be used, and what was sent and noted on the way. -/
structure Dialled (σ : Type) where
  pipe : Except StoreError (Pipe σ)
  sent : List Command
  notices : List Notice

/-- Opens a pipe to an address. -/
def connect {σ : Type} (net : Network σ) (address : String) (options : ConnectOptions) :
    Dialled σ :=
  let url := connectionUrl address options.database
  let notices := [Notice.connecting url options.syncTimeout]
  match Endpoint.ofUrl? url with
  | .error f =>
    ⟨.error (.connection ("invalid address " ++ url ++ ": " ++ f.toFailure.message)), [], notices⟩
  | .ok e =>
    match net.reach e.place with
    | .error f => ⟨.error (Failure.io f).toConnectError, [], notices⟩
    | .ok server =>
      let a := settle net options.syncTimeout e ⟨server, false, [], notices⟩
      ⟨a.1.map fun _ => a.2, a.2.sent.reverse, a.2.notices.reverse⟩

/-- The database is selected once, at connect; no other can be asked for. -/
def database (options : ConnectOptions) (index : Int) : Except StoreError Unit :=
  if index = options.database then .ok ()
  else
    .error (.connection
      ("database " ++ String.ofList (Text.integer index) ++
        " requested but connection selected database " ++
        String.ofList (Text.integer options.database)))

/-- The calls on the selected database. -/
def calls {σ : Type} (net : Network σ) (limit : Duration) : Database (Pipe σ) where
  set _ key value f p :=
    let a := p.set net limit key value f
    (Reply.ofExcept a.1, a.2)
  execute _ t p :=
    let a := p.execute net limit t
    (Reply.ofExcept a.1, a.2)
  keyExists key p := p.keyExists net limit key

/-- The end of a pipe. -/
def close {σ : Type} (p : Pipe σ) : Except StoreError Unit × Pipe σ :=
  (.ok (), p.note .disconnecting)

/-- The connection that an open pipe is. -/
def connection {σ : Type} (net : Network σ) (options : ConnectOptions) : Connection (Pipe σ) where
  database index _ := (database options index).map fun _ => calls net options.syncTimeout
  close := close

/-- How a run's connection to an address is opened. -/
def opening {σ : Type} (net : Network σ) (address : String) (options : ConnectOptions) :
    Opening (Pipe σ) :=
  let d := connect net address options
  ⟨address, options, d.pipe, d.notices⟩

end StoreSoak.Remote
