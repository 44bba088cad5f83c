import StoreSoak.Ratio.Shortest
import StoreSoak.Text.Basic

/-!
Ratios as text.

A ratio is written by its shortest decimal, positionally with at least one fraction digit while its
point stays close to its digits, and else with an exponent. Documents and diagnostics differ in the
range, in the sign of a positive exponent and in the choice between two equally near decimals; each
has its `Layout`.

* `documents` : positional from `1e-5` up to `1e16`, then `1e+16`; a half goes to the even
  neighbour.
* `diagnostics` : positional from `1e-4` up to `1e16`, then `1e16`; a half goes up.
-/

namespace StoreSoak.Ratio

/-- The choices that a written form of ratios makes. -/
structure Layout where
  /-- The decimal point may stand so many places before the first digit. -/
  before : Nat
  /-- The decimal point may stand so many places after the first digit. -/
  after : Nat
  /-- Whether a positive exponent has a sign. -/
  plus : Bool
  tie : Tie

namespace Layout

/-- The form that documents use. -/
def documents : Layout := ⟨4, 16, true, .toEven⟩

/-- The form that diagnostics use. -/
def diagnostics : Layout := ⟨3, 16, false, .up⟩

/-- The digits with the decimal point after `point` of them. -/
def positional (digits : List Char) (point : Int) : List Char :=
  if point ≤ 0 then '0' :: '.' :: (List.replicate (-point).toNat '0' ++ digits)
  else
    let n := point.toNat
    if n < digits.length then digits.take n ++ '.' :: digits.drop n
    else digits ++ List.replicate (n - digits.length) '0' ++ ['.', '0']

/-- The digits with a point after the first and an exponent. -/
def exponential (plus : Bool) (digits : List Char) (exponent : Int) : List Char :=
  let sign := if exponent < 0 then ['-'] else if plus then ['+'] else []
  digits.take 1 ++ Text.fraction (digits.drop 1) ++ 'e' :: sign ++ Text.decimal exponent.natAbs

/-- A ratio in the given form. -/
def chars (l : Layout) (r : Ratio) : List Char :=
  let d := r.shortest l.tie
  if d.coefficient = 0 then ['0', '.', '0']
  else
    let digits := Text.decimal d.coefficient
    let point : Int := digits.length + d.exponent
    if -(l.before : Int) ≤ point && point ≤ l.after then positional digits point
    else exponential l.plus digits (point - 1)

end Layout

/-- A ratio in the given form. -/
def text (l : Layout) (r : Ratio) : String :=
  String.ofList (l.chars r)

end StoreSoak.Ratio
