import StoreSoak.Duration
import StoreSoak.Json

/-!
Values read out of JSON documents.

A record is an object with every field at most once, in any order, or an array with exactly the
fields in their order. Members that are no field are passed over, or refused where the record is
strict. Numbers are natural, written with digits alone and below a limit.

* `fields` finds the values of a record's fields.
* `natBelow`, `truth?`, `choice` read one value.
* `duration` reads a strict record of seconds and nanoseconds; a second's worth of nanoseconds and
  more is carried, and what leaves the range is refused.
-/

namespace StoreSoak.Json

/-- The value of the member of that name, if there is one. -/
def member? (name : String) (members : List (Option String × Json)) : Option Json :=
  (members.find? fun m => m.1 = some name).map Prod.snd

/-- How often a name occurs. -/
def occurrences (name : String) (members : List (Option String × Json)) : Nat :=
  (members.filter fun m => m.1 = some name).length

/-- Whether the names of an object's members are admissible: each is a text, no field occurs twice,
and nothing but fields occurs in a strict record. -/
def admissible (names : List String) (strict : Bool) (members : List (Option String × Json)) :
    Bool :=
  members.all (fun m => m.1.any fun name => !strict || names.contains name) &&
    names.all fun name => occurrences name members ≤ 1

/-- The values of a record's fields in the order of the names, `none` for a field that an object
lacks. -/
def fields (names : List String) (strict : Bool) : Json → Option (List (Option Json))
  | .array items => if items.length = names.length then some (items.map some) else none
  | .object members =>
    if admissible names strict members then some (names.map fun name => member? name members)
    else none
  | _ => none

/-- A natural number written with digits alone, below the limit. -/
def natBelow (limit : Nat) : Json → Option Nat
  | .number lexeme =>
    if lexeme.all Char.isDigit && Nat.ofDigitChars 10 lexeme 0 < limit then
      some (Nat.ofDigitChars 10 lexeme 0)
    else none
  | _ => none

/-- The first number that 64 bits do not hold. -/
def limit64 : Nat := 18446744073709551616

/-- The first number that 32 bits do not hold. -/
def limit32 : Nat := 4294967296

/-- A truth value. -/
def truth? : Json → Option Bool
  | .bool b => some b
  | _ => none

/-- A value that may be null or missing. -/
def nullable {α : Type} (read : Json → Option α) : Option Json → Option (Option α)
  | none => some none
  | some .null => some none
  | some v => (read v).map some

/-- A value that must be there. -/
def required {α : Type} (read : Json → Option α) (v : Option Json) : Option α :=
  v.bind read

/-- One of several named choices: its name, or an object whose one member has that name and the
value null. -/
def choice {α : Type} (byName : String → Option α) : Json → Option α
  | .string (some name) => byName name
  | .object [(some name, .null)] => byName name
  | _ => none

/-- A duration. -/
def duration (v : Json) : Option Duration :=
  match fields ["secs", "nanos"] true v with
  | some [secs, nanos] => do
    let secs ← required (natBelow limit64) secs
    let nanos ← required (natBelow limit32) nanos
    Duration.ofParts? secs nanos
  | _ => none

/-- A duration as a record of its seconds and nanoseconds. -/
def ofDuration (d : Duration) : Json :=
  record [("secs", ofNat d.seconds), ("nanos", ofNat d.subsecond)]

end StoreSoak.Json
