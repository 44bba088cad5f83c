import StoreSoak.Draw.Generator
import StoreSoak.Store.Flags

/-!
Fair draws below a number.

A word `w` is a candidate for the draw `w * n / 2 ^ 32`. Where the low half of the product lies
beyond the zone the word is rejected and the next one is tried, so that every number below `n` is
drawn by equally many words.

* `zone` is the last admissible low half, `draw?` what one word gives.
* `below` tries words until one is accepted. The words of a generator come round again after its
  period, so trying them for one period is trying all of them.
* `flagsOf` gives the zero draw the high priority.
-/

namespace StoreSoak.Draw

/-- How many of the 32 bits stand before the highest one that is set. -/
def leadingZeros (n : UInt32) : Nat :=
  if n = 0 then 32 else 31 - n.toNat.log2

/-- The last low half of a product with which a word is accepted. -/
def zone (n : UInt32) : UInt32 :=
  (n <<< UInt32.ofNat (leadingZeros n)) - 1

/-- The number below `n` that a word draws; none if the word is rejected. -/
def draw? (n w : UInt32) : Option UInt32 :=
  let p : UInt64 := w.toUInt64 * n.toUInt64
  if p.toUInt32 ≤ zone n then some (p >>> 32).toUInt32 else none

/-- The first accepted draw among at most `fuel` words, and the generator after it; zero if all of
them are rejected. -/
def search (n : UInt32) : Nat → Generator → UInt32 × Generator
  | 0, g => (0, g)
  | fuel + 1, g =>
    let r := g.next
    match draw? n r.1 with
    | some d => (d, r.2)
    | none => search n fuel r.2

/-- The number of words after which a generator comes round: sixteen for every number of a block. -/
def period : Nat := 16 * 18446744073709551616

/-- A draw below `n`, and the generator after it. -/
def below (n : UInt32) (g : Generator) : UInt32 × Generator :=
  search n period g

/-- Draws below `n` in order. -/
def sequence (n : UInt32) : Nat → Generator → List UInt32
  | 0, _ => []
  | count + 1, g =>
    let r := below n g
    r.1 :: sequence n count r.2

/-- Why nothing can be drawn. -/
inductive Fault where
  /-- No number is below zero. -/
  | emptyRange
  deriving DecidableEq, Repr

/-- The wording of a fault. -/
def Fault.message : Fault → String
  | .emptyRange => "cannot sample empty range"

/-- So many draws below `n`, unless there is nothing to draw from. -/
def sequence? (n : UInt32) (count : Nat) (g : Generator) : Except Fault (List UInt32) :=
  if n = 0 && count ≠ 0 then .error .emptyRange else .ok (sequence n count g)

/-- The flags that a draw selects: high priority for zero, the default for every other number. -/
def flagsOf (d : UInt32) : Flags :=
  if d = 0 then Flags.urgent else Flags.none

/-- The number of sides of a draw for the odds of a plan, at least one. -/
def sides (odds : UInt32) : UInt32 :=
  if odds = 0 then 1 else odds

end StoreSoak.Draw
