import StoreSoak.Store.Memory

/-!
Several connections to stores inside the process, used side by side.

A session names its connections and its accessors. A name stands for what it was given last; an
accessor stays with the connection it was taken from, also when that connection's name is given away
or the connection is closed.

* `Session.step` does one step and answers it, `Session.run` does them in order.
-/

namespace StoreSoak

/-- A database of one of the connections of a session. -/
structure Accessor where
  connection : Nat
  index : Int
  deriving DecidableEq, Repr

/-- Connections and accessors by their names. Connections are numbered in the order in which they
were opened. -/
structure Session where
  stores : List Memory
  connections : Table String (Nat × ConnectOptions)
  accessors : Table String Accessor

namespace Session

/-- No connection yet. -/
def start : Session := ⟨[], Table.empty, Table.empty⟩

/-- One step of a session. -/
inductive Step where
  | connect (name : String) (options : ConnectOptions)
  | database (name connection : String) (index : Int)
  | clone (name source : String)
  | close (name : String)
  | set (name key value : String) (flags : Flags)
  | get (name key : String)
  | keyExists (name key : String)
  | execute (name : String) (t : Transaction)

/-- What a step is answered with. -/
inductive Answer where
  | opened (options : ConnectOptions)
  | index (i : Int)
  | closed
  | value (v : Option String)
  | truth (b : Bool)
  | failed (e : StoreError)
  /-- The name stands for nothing. -/
  | unknownName

/-- The content of a connection. -/
def store (s : Session) (connection : Nat) : Memory :=
  s.stores.getD connection Memory.fresh

/-- The session with other content in one connection. -/
def withStore (s : Session) (connection : Nat) (m : Memory) : Session :=
  { s with stores := s.stores.set connection m }

/-- An answer to a call, or its failure. -/
def Answer.ofCall {α : Type} (ok : α → Answer) : Except StoreError α → Answer
  | .ok a => ok a
  | .error e => .failed e

/-- A call through an accessor. -/
def call (s : Session) (name : String) (f : Memory → Int → Answer × Memory) : Answer × Session :=
  match s.accessors.get? name with
  | none => (.unknownName, s)
  | some a =>
    let r := f (s.store a.connection) a.index
    (r.1, s.withStore a.connection r.2)

/-- One step: its answer, and the session after it. -/
def step (s : Session) : Step → Answer × Session
  | .connect name options =>
    (.opened options,
      { s with
        stores := s.stores ++ [Memory.fresh]
        connections := s.connections.insert name (s.stores.length, options) })
  | .database name connection index =>
    match s.connections.get? connection with
    | none => (.unknownName, s)
    | some (c, _) =>
      match (s.store c).database index with
      | .error e => (.failed e, s)
      | .ok () => (.index index, { s with accessors := s.accessors.insert name ⟨c, index⟩ })
  | .clone name source =>
    match s.accessors.get? source with
    | none => (.unknownName, s)
    | some a => (.index a.index, { s with accessors := s.accessors.insert name a })
  | .close name =>
    match s.connections.get? name with
    | none => (.unknownName, s)
    | some (c, _) =>
      let r := (s.store c).close
      (Answer.ofCall (fun _ => .closed) r.1,
        { s.withStore c r.2 with connections := s.connections.erase name })
  | .set name key value flags => s.call name fun m index =>
    let r := m.set index key value flags
    (Answer.ofCall .value r.1, r.2)
  | .get name key => s.call name fun m index =>
    (Answer.ofCall .value (m.get index key), m)
  | .keyExists name key => s.call name fun m index =>
    (Answer.ofCall .truth (m.keyExists index key), m)
  | .execute name t => s.call name fun m index =>
    let r := m.execute index t
    (Answer.ofCall .truth r.1, r.2)

/-- The answers to the steps in order, and the session after them. -/
def run (s : Session) : List Step → List Answer × Session
  | [] => ([], s)
  | p :: rest =>
    let r := s.step p
    let q := run r.2 rest
    (r.1 :: q.1, q.2)

end Session

end StoreSoak
