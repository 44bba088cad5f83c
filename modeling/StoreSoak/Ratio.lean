/-!
The ratio of two counts, to the precision of 53 binary digits.

A ratio is kept as `mantissa * 2 ^ exponent`. Each count is first rounded to 53 significant bits,
and so is their quotient; a value half-way between two neighbours goes to the even one. Counts lie
below `2 ^ 64`, so no quotient is too small or too large for the precision to be kept.

* `roundedQuotient` is the nearest whole number to a quotient.
* `significant` rounds a count, `ofQuotient` a quotient, `ofCounts` does both.
-/

namespace StoreSoak

/-- A number `mantissa * 2 ^ exponent`. The mantissa has 53 bits, or is zero. -/
structure Ratio where
  mantissa : Nat
  exponent : Int
  deriving DecidableEq, Repr

namespace Ratio

/-- The least number of 53 binary digits. -/
def leastMantissa : Nat := 4503599627370496

/-- The ratio of nothing to something. -/
def zero : Ratio := ⟨0, 0⟩

/-- The whole number nearest to `a / b`; of two equally near, the even one. -/
def roundedQuotient (a b : Nat) : Nat :=
  let q := a / b
  let r := a % b
  if 2 * r < b then q
  else if b < 2 * r then q + 1
  else q + q % 2

/-- A count rounded to 53 significant bits. -/
def significant (n : Nat) : Nat :=
  let unit := Nat.pow 2 (n.log2 - 52)
  roundedQuotient n unit * unit

/-- The power of two by which `a / b` has to be scaled to have 53 digits before the point. -/
def scale (a b : Nat) : Int :=
  let guess : Int := 52 + b.log2 - a.log2
  let reaches : Bool :=
    if 0 ≤ guess then b * leastMantissa ≤ a * Nat.pow 2 guess.toNat
    else b * leastMantissa * Nat.pow 2 (-guess).toNat ≤ a
  if reaches then guess else guess + 1

/-- The quotient of two positive numbers, rounded to 53 significant bits. -/
def ofQuotient (a b : Nat) : Ratio :=
  let s := scale a b
  let m := if 0 ≤ s then roundedQuotient (a * Nat.pow 2 s.toNat) b
    else roundedQuotient a (b * Nat.pow 2 (-s).toNat)
  if m = 2 * leastMantissa then ⟨leastMantissa, 1 - s⟩ else ⟨m, -s⟩

/-- The share that `part` has in `whole`, zero in an empty whole. -/
def ofCounts (part whole : Nat) : Ratio :=
  if part = 0 || whole = 0 then zero
  else ofQuotient (significant part) (significant whole)

end Ratio

end StoreSoak
