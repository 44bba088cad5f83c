/-!
How a command is dispatched.

Two independent wishes go with a command: to be sent ahead of queued work, and not to wait for its
reply. The empty set of wishes is the default. Sets of flags form a Boolean algebra, and each set
has its code, one bit per flag. The six bits of a code that stand for no flag are reserved: whoever
sets them finds them again.

* `bits`, `retained`, `ofBits?` and `truncated` go between sets and codes; `retained` keeps a
  reserved bit, `ofBits?` refuses it, `truncated` drops it.
-/

namespace StoreSoak

/-- The dispatch flags of one command. -/
structure Flags where
  highPriority : Bool
  fireAndForget : Bool
  /-- The bits that stand for no flag. -/
  reserved : BitVec 6
  deriving DecidableEq, Repr, Inhabited

namespace Flags

/-- No flag. -/
def none : Flags := ⟨false, false, 0⟩

/-- Every flag. -/
def all : Flags := ⟨true, true, 0⟩

/-- Ahead of queued work. -/
def urgent : Flags := ⟨true, false, 0⟩

/-- Without waiting for the reply. -/
def forgetful : Flags := ⟨false, true, 0⟩

/-- The code of a set: one for high priority, two for fire and forget, then the reserved bits. -/
def bits (f : Flags) : Nat :=
  f.highPriority.toNat + 2 * f.fireAndForget.toNat + 4 * f.reserved.toNat

/-- The set with the given code of eight bits. -/
def retained (n : Nat) : Flags :=
  ⟨n % 2 = 1, n / 2 % 2 = 1, BitVec.ofNat 6 (n / 4)⟩

/-- The set with the two known bits of a code. -/
def truncated (n : Nat) : Flags :=
  { retained n with reserved := 0 }

/-- The set with the given code, if it has no reserved bit. -/
def ofBits? (n : Nat) : Option Flags :=
  if n < 4 then some (truncated n) else Option.none

/-- A flag of either set. -/
def union (a b : Flags) : Flags :=
  ⟨a.highPriority || b.highPriority, a.fireAndForget || b.fireAndForget, a.reserved ||| b.reserved⟩

/-- A flag of both sets. -/
def inter (a b : Flags) : Flags :=
  ⟨a.highPriority && b.highPriority, a.fireAndForget && b.fireAndForget, a.reserved &&& b.reserved⟩

/-- A flag of the first set and not of the second. -/
def diff (a b : Flags) : Flags :=
  ⟨a.highPriority && !b.highPriority, a.fireAndForget && !b.fireAndForget,
    a.reserved &&& ~~~b.reserved⟩

/-- A flag of exactly one set. -/
def toggle (a b : Flags) : Flags :=
  ⟨a.highPriority != b.highPriority, a.fireAndForget != b.fireAndForget, a.reserved ^^^ b.reserved⟩

/-- The flags that are not in the set. -/
def complement (a : Flags) : Flags :=
  ⟨!a.highPriority, !a.fireAndForget, 0⟩

/-- Whether every flag of the second set is in the first. -/
def contains (a b : Flags) : Bool :=
  inter a b = b

/-- Whether the two sets have a flag in common. -/
def intersects (a b : Flags) : Bool :=
  inter a b ≠ none

/-- Whether the set is empty. -/
def isEmpty (a : Flags) : Bool :=
  a = none

/-- Whether the set holds every flag. -/
def isAll (a : Flags) : Bool :=
  contains a all

end Flags

end StoreSoak
