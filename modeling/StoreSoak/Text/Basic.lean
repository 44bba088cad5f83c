/-!
Rows of characters: whole numbers in digits, and back; the parts between separators.

* `decimal` writes a number without leading zeros, `padded` in at least so many digits, `integer`
  with its sign. `withoutTrailingZeros` cuts the zeros at the end of a fraction.
* `natural?` reads a number of 64 bits, `integer?` an integer of 64 bits. A plus may stand in front,
  and zeros; a minus only in front of an integer; nothing else is read.
* `splitOn` are the parts between the separators, of which there is at least one.
-/

namespace StoreSoak.Text

/-! ### Numbers in digits -/

/-- A number in decimal digits, without leading zeros. -/
def decimal (n : Nat) : List Char :=
  Nat.toDigits 10 n

/-- A number in at least `width` digits of the given base, zeros in front. -/
def padded (base width n : Nat) : List Char :=
  let digits := Nat.toDigits base n
  List.replicate (width - digits.length) '0' ++ digits

/-- The digits up to the last one that is not zero. -/
def withoutTrailingZeros (digits : List Char) : List Char :=
  (digits.reverse.dropWhile (· == '0')).reverse

/-- A decimal point and the digits after it, nothing when none is left. -/
def fraction (digits : List Char) : List Char :=
  if digits.isEmpty then [] else '.' :: digits

/-- An integer in decimal digits, a minus in front of a negative one. -/
def integer (i : Int) : List Char :=
  if i < 0 then '-' :: decimal i.natAbs else decimal i.natAbs

/-! ### Numbers read from digits -/

/-- A row of digits, at least one, as a number. -/
def digits? (s : List Char) : Option Nat :=
  if !s.isEmpty && s.all Char.isDigit then some (Nat.ofDigitChars 10 s 0) else none

/-- The number, if it is below the limit. -/
def below (limit : Nat) (n : Nat) : Option Nat :=
  if n < limit then some n else none

/-- A number of 64 bits. -/
def natural? : List Char → Option Nat
  | '+' :: s => (digits? s).bind (below 18446744073709551616)
  | s => (digits? s).bind (below 18446744073709551616)

/-- An integer of 64 bits. -/
def integer? : List Char → Option Int
  | '-' :: s => ((digits? s).bind (below 9223372036854775809)).map fun n => -(n : Int)
  | '+' :: s => ((digits? s).bind (below 9223372036854775808)).map fun n => (n : Int)
  | s => ((digits? s).bind (below 9223372036854775808)).map fun n => (n : Int)

/-! ### Parts between separators -/

/-- The parts between the separators, at least one. -/
def splitOn {α : Type} [DecidableEq α] (sep : α) : List α → List (List α)
  | [] => [[]]
  | c :: rest =>
    if c = sep then [] :: splitOn sep rest
    else
      match splitOn sep rest with
      | [] => [[c]]
      | part :: parts => (c :: part) :: parts

/-- There is at least one part. -/
theorem splitOn_ne_nil {α : Type} [DecidableEq α] (sep : α) (s : List α) : splitOn sep s ≠ [] := by
  cases s with
  | nil => simp [splitOn]
  | cons c rest =>
    rw [splitOn]
    split
    · simp
    · split <;> simp

end StoreSoak.Text
