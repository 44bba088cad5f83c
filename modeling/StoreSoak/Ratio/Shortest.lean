import StoreSoak.Ratio

/-!
The shortest decimal that determines a ratio.

A ratio stands for all numbers that round to it: the interval half-way down and half-way up to its
neighbours, ends included when its mantissa is even. The decimal is found on the first of the grids
of one, two, ... seventeen significant digits that has a point in that interval; only the two grid
points around the ratio can be in it if any is. Of two such points the nearer is taken; which of two
equally near ones is a choice.

* `Rounding` is the interval, all its bounds over one denominator; `Tie` is the choice.
* `onGrid` looks for a point on one grid, `shortest` goes through the grids.
-/

namespace StoreSoak

/-- A decimal number `coefficient * 10 ^ exponent`. -/
structure Decimal where
  coefficient : Nat
  exponent : Int
  deriving DecidableEq, Repr

namespace Decimal

/-- The same number with the zeros at the end of the coefficient moved to the exponent. -/
def trim : Nat → Decimal → Decimal
  | 0, d => d
  | fuel + 1, d =>
    if d.coefficient ≠ 0 && d.coefficient % 10 = 0 then
      trim fuel ⟨d.coefficient / 10, d.exponent + 1⟩
    else d

end Decimal

namespace Ratio

/-- The numbers that round to a ratio: `value`, `low` and `high` over the denominator `unit`. -/
structure Rounding where
  value : Nat
  low : Nat
  high : Nat
  unit : Nat
  /-- Whether the ends belong to the interval. -/
  closed : Bool

/-- The interval of a ratio, in quarters of the step to the next ratio. The step down from a power
of two is half as long. -/
def rounding (r : Ratio) : Rounding :=
  let down := if r.mantissa = leastMantissa then 1 else 2
  let e := r.exponent - 2
  let up := Nat.pow 2 e.toNat
  { value := 4 * r.mantissa * up
    low := (4 * r.mantissa - down) * up
    high := (4 * r.mantissa + 2) * up
    unit := Nat.pow 2 (-e).toNat
    closed := r.mantissa % 2 = 0 }

/-- Whether `n / d` lies in the interval. -/
def Rounding.contains (i : Rounding) (n d : Nat) : Bool :=
  if i.closed then i.low * d ≤ n * i.unit && n * i.unit ≤ i.high * d
  else i.low * d < n * i.unit && n * i.unit < i.high * d

/-- The exponent of the first significant decimal digit of `a / b`, both positive. -/
def leadingExponent (a b : Nat) : Int :=
  if b ≤ a then (Nat.toDigits 10 (a / b)).length - 1
  else
    let inverse := (b - 1) / a
    if inverse = 0 then 0 else -(Nat.toDigits 10 inverse).length

/-- Which of two equally near decimals is taken. -/
inductive Tie where
  /-- The one with an even last digit. -/
  | toEven
  /-- The greater one. -/
  | up

/-- The choice between two neighbours. -/
def Tie.choose : Tie → Nat → Nat → Nat
  | .toEven, below, above => if below % 2 = 0 then below else above
  | .up, _, above => above

/-- The point of the grid of `digits` significant digits that determines the ratio, if there is
one. -/
def onGrid (t : Tie) (i : Rounding) (digits : Nat) : Option Decimal :=
  let step := leadingExponent i.value i.unit - digits + 1
  let up := Nat.pow 10 step.toNat
  let down := Nat.pow 10 (-step).toNat
  let below := i.value * down / (i.unit * up)
  let above := below + 1
  let holds (c : Nat) : Bool := i.contains (c * up) down
  let nearer : Nat :=
    let twice := 2 * i.value * down
    let middle := (below + above) * (i.unit * up)
    if twice < middle then below
    else if middle < twice then above
    else t.choose below above
  if holds below && holds above then some ⟨nearer, step⟩
  else if holds below then some ⟨below, step⟩
  else if holds above then some ⟨above, step⟩
  else none

/-- The first grid with a point in the interval, from the given number of digits on. -/
def firstGrid (t : Tie) (i : Rounding) : Nat → Nat → Decimal
  | 0, _ => ⟨0, 0⟩
  | fuel + 1, digits => (onGrid t i digits).getD (firstGrid t i fuel (digits + 1))

/-- The decimal with the fewest digits among those that determine the ratio. -/
def shortest (t : Tie) (r : Ratio) : Decimal :=
  if r.mantissa = 0 then ⟨0, 0⟩ else (firstGrid t r.rounding 17 1).trim 17

end Ratio

end StoreSoak
