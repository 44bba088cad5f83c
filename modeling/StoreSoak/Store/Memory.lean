import StoreSoak.Store.Basic
import StoreSoak.Store.Transaction

/-!
The store inside the process.

One connection holds a keyspace for every database index, made when it is first written to, and
whether it has been closed. A closed connection refuses every call and keeps its data.

* `set`, `get`, `keyExists` and `execute` are the calls on the database of an index.
* `close` ends the connection, once.
-/

namespace StoreSoak

/-- The content of one connection to the store inside the process. -/
structure Memory where
  databases : Table Int Keyspace
  closed : Bool
  deriving Inhabited

namespace Memory

/-- A connection that has just been opened. -/
def fresh : Memory := ⟨Table.empty, false⟩

/-- The refusal of a call on a closed connection. -/
def closedError : StoreError := .connection "connection is closed"

/-- The refusal to close a connection twice. -/
def alreadyClosedError : StoreError := .connection "connection already closed"

/-- The keyspace of a database. -/
def keyspace (m : Memory) (index : Int) : Keyspace :=
  (m.databases.get? index).getD Table.empty

/-- The content with another keyspace in one database. -/
def withKeyspace (m : Memory) (index : Int) (k : Keyspace) : Memory :=
  { m with databases := m.databases.insert index k }

/-- A keyspace that was put in is found again; the other databases are untouched. -/
theorem keyspace_withKeyspace (m : Memory) (i j : Int) (k : Keyspace) :
    (m.withKeyspace i k).keyspace j = if j = i then k else m.keyspace j := by
  rw [keyspace, withKeyspace, Table.get?_insert]
  split <;> rfl

/-- Asks for the database of an index. -/
def database (m : Memory) (_index : Int) : Except StoreError Unit :=
  if m.closed then .error closedError else .ok ()

/-- Writes a value and answers with the one it replaces, whatever the flags. -/
def set (m : Memory) (index : Int) (key value : String) (_flags : Flags) :
    Except StoreError (Option String) × Memory :=
  if m.closed then (.error closedError, m)
  else
    let k := m.keyspace index
    (.ok (k.get? key), m.withKeyspace index (k.insert key value))

/-- Reads a value. -/
def get (m : Memory) (index : Int) (key : String) : Except StoreError (Option String) :=
  if m.closed then .error closedError else .ok ((m.keyspace index).get? key)

/-- Whether a key has a value. -/
def keyExists (m : Memory) (index : Int) (key : String) : Except StoreError Bool :=
  if m.closed then .error closedError else .ok ((m.keyspace index).contains key)

/-- Commits a transaction if its conditions hold and answers whether it did. -/
def execute (m : Memory) (index : Int) (t : Transaction) : Except StoreError Bool × Memory :=
  if m.closed then (.error closedError, m)
  else
    let r := t.commit (m.keyspace index)
    (.ok r.1, m.withKeyspace index r.2)

/-- Ends the connection. -/
def close (m : Memory) : Except StoreError Unit × Memory :=
  if m.closed then (.error alreadyClosedError, m) else (.ok (), { m with closed := true })

end Memory

end StoreSoak
