import StoreSoak.Store.Memory

/-!
What the harness needs of a store.

The state of the store is a parameter. A call of a worker goes to the store's state and comes back
with a reply and the state after it; the store may tell its callers apart. A reply is an answer, an
error, or a breakdown of the caller.

* `Database` holds the calls, `Connection` gives a database for an index and ends the connection.
* `Memory.connection` is the store inside the process.
-/

namespace StoreSoak

/-- Who makes a call: the worker, and which of its iterations. -/
structure Caller where
  worker : Nat
  iteration : Nat
  deriving DecidableEq, Repr

/-- What a breakdown leaves behind. -/
inductive Payload where
  | text (s : String)
  /-- Something that is no text. -/
  | other
  deriving DecidableEq, Repr

/-- The wording of a breakdown. -/
def Payload.message : Payload → String
  | .text s => s
  | .other => "non-string panic payload"

/-- What a call comes back with. -/
inductive Reply (α : Type) where
  | answered (a : α)
  | failed (e : StoreError)
  | crashed (p : Payload)
  deriving DecidableEq

/-- An answer or a failure as a reply. -/
def Reply.ofExcept {α : Type} : Except StoreError α → Reply α
  | .ok a => .answered a
  | .error e => .failed e

/-- The reply with its answer changed. -/
def Reply.map {α β : Type} (f : α → β) : Reply α → Reply β
  | .answered a => .answered (f a)
  | .failed e => .failed e
  | .crashed p => .crashed p

/-- The calls on one logical database. -/
structure Database (σ : Type) where
  /-- Writes a value and answers with the one it replaces. -/
  set : Caller → String → String → Flags → σ → Reply (Option String) × σ
  /-- Commits a transaction and answers whether its conditions held. -/
  execute : Caller → Transaction → σ → Reply Bool × σ
  /-- Whether a key has a value. -/
  keyExists : String → σ → Except StoreError Bool × σ

/-- An open connection. -/
structure Connection (σ : Type) where
  /-- The database of an index. -/
  database : Int → σ → Except StoreError (Database σ)
  /-- Ends the connection. -/
  close : σ → Except StoreError Unit × σ

namespace Memory

/-- The database of an index in the store inside the process. -/
def databaseOf (index : Int) : Database Memory where
  set _ key value flags m :=
    let r := m.set index key value flags
    (Reply.ofExcept r.1, r.2)
  execute _ t m :=
    let r := m.execute index t
    (Reply.ofExcept r.1, r.2)
  keyExists key m := (m.keyExists index key, m)

/-- The connection to the store inside the process. -/
def connection : Connection Memory where
  database index m := (m.database index).map fun _ => databaseOf index
  close m := m.close

end Memory

end StoreSoak
