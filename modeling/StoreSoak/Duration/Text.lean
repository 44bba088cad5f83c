import StoreSoak.Duration
import StoreSoak.Text.Basic

/-!
Durations as text.

A duration is written in the greatest of four units that it fills: seconds, milliseconds,
microseconds, nanoseconds. What is left of the unit follows as a decimal fraction down to the
nanosecond, the zeros at its end cut and the point with them when nothing is left: `5s`, `1.5ms`,
`0ns`.

* `Unit` is the unit with the number of fraction digits it needs, `unitOf` its choice.
* `text` is the whole spelling.
-/

namespace StoreSoak.Duration

/-- The units in which durations are written. -/
inductive Unit where
  | seconds
  | milliseconds
  | microseconds
  | nanoseconds
  deriving DecidableEq, Repr

/-- How many decimal digits there are from the unit down to the nanosecond. -/
def Unit.places : Unit → Nat
  | .seconds => 9
  | .milliseconds => 6
  | .microseconds => 3
  | .nanoseconds => 0

/-- The sign of the unit. -/
def Unit.sign : Unit → List Char
  | .seconds => ['s']
  | .milliseconds => ['m', 's']
  | .microseconds => ['µ', 's']
  | .nanoseconds => ['n', 's']

/-- The nanoseconds of the unit. -/
def Unit.size (u : Unit) : Nat :=
  Nat.pow 10 u.places

/-- The greatest unit that the duration fills; the nanosecond for no time at all. -/
def unitOf (d : Duration) : Unit :=
  if Unit.seconds.size ≤ d.nanoseconds then .seconds
  else if Unit.milliseconds.size ≤ d.nanoseconds then .milliseconds
  else if Unit.microseconds.size ≤ d.nanoseconds then .microseconds
  else .nanoseconds

/-- What is left of the unit in fraction digits, zeros at the end cut. -/
def fractionDigits (u : Unit) (n : Nat) : List Char :=
  if u.places = 0 then []
  else Text.withoutTrailingZeros (Text.padded 10 u.places (n % u.size))

/-- A number of nanoseconds written in the unit. -/
def textIn (u : Unit) (n : Nat) : List Char :=
  Text.decimal (n / u.size) ++ Text.fraction (fractionDigits u n) ++ u.sign

/-- The characters of a duration's text. -/
def textChars (d : Duration) : List Char :=
  textIn d.unitOf d.nanoseconds

/-- A duration as text. -/
def text (d : Duration) : String :=
  String.ofList d.textChars

end StoreSoak.Duration
