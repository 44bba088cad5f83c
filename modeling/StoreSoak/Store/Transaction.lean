import StoreSoak.Store.Flags
import StoreSoak.Store.Table

/-!
Guarded transactions.

A transaction names conditions on the existence of keys and the values it would write. It commits
when every condition holds in the state before it, and then writes in the order in which the writes
were staged; otherwise it changes nothing.

* `Condition.holds` judges one condition from whether its key exists.
* `Transaction.holds` judges all of them on a keyspace, `Transaction.apply` writes.
* `Transaction.commit` is the whole effect on a keyspace with its answer.
-/

namespace StoreSoak

/-- The values of one logical database by their keys. -/
abbrev Keyspace := Table String String

/-- A condition on the existence of a key. -/
inductive Condition where
  | exists (key : String)
  | absent (key : String)
  deriving DecidableEq, Repr

namespace Condition

/-- The key that the condition is about. -/
def key : Condition → String
  | .exists k => k
  | .absent k => k

/-- Whether the condition holds, given whether its key exists. -/
def holds : Condition → Bool → Bool
  | .exists _, present => present
  | .absent _, present => !present

end Condition

/-- A value staged to be written. -/
structure Write where
  key : String
  value : String
  flags : Flags
  deriving DecidableEq, Repr

/-- Conditions, and what to write when they hold. -/
structure Transaction where
  conditions : List Condition
  writes : List Write
  deriving DecidableEq, Repr

namespace Transaction

/-- The transaction without conditions and writes. -/
def empty : Transaction := ⟨[], []⟩

/-- One more condition, after the others. -/
def require (t : Transaction) (c : Condition) : Transaction :=
  { t with conditions := t.conditions ++ [c] }

/-- One more value to write, after the others. -/
def stage (t : Transaction) (key value : String) (flags : Flags) : Transaction :=
  { t with writes := t.writes ++ [⟨key, value, flags⟩] }

/-- One step of building a transaction. -/
inductive Item where
  | require (c : Condition)
  | stage (key value : String) (flags : Flags)

/-- The transaction after one more step. -/
def add (t : Transaction) : Item → Transaction
  | .require c => t.require c
  | .stage key value flags => t.stage key value flags

/-- The transaction that the steps build, in their order. -/
def ofItems (items : List Item) : Transaction :=
  items.foldl add empty

/-- The flags of all writes together. -/
def flags (t : Transaction) : Flags :=
  t.writes.foldl (fun f w => f.union w.flags) Flags.none

/-- Whether every condition holds in the keyspace. -/
def holds (t : Transaction) (k : Keyspace) : Bool :=
  t.conditions.all fun c => c.holds (k.contains c.key)

/-- The keyspace after all writes, the last one to a key prevailing. -/
def apply (t : Transaction) (k : Keyspace) : Keyspace :=
  t.writes.foldl (fun k w => k.insert w.key w.value) k

/-- Whether the transaction commits, and the keyspace after it. -/
def commit (t : Transaction) (k : Keyspace) : Bool × Keyspace :=
  if t.holds k then (true, t.apply k) else (false, k)

end Transaction

end StoreSoak
