import StoreSoak.Duration
import StoreSoak.Json.Decode

/-!
What one operation of a worker measured.

* `Kind` is the way in which an iteration went, `Sample` what is noted about it.
* Samples are ordered field by field, in the order of the fields; of the kinds the transaction comes
  first, and an answer that is missing comes before a negative one.
* `toJson` and `ofJson?` write and read both.
-/

namespace StoreSoak

/-- The two ways in which an iteration can go. -/
inductive Kind where
  /-- A guarded transaction with a set inside that waits for no reply. -/
  | transactional
  /-- A set that waits for the value it replaces. -/
  | direct
  deriving DecidableEq, Repr

namespace Kind

/-- The name of a kind. -/
def name : Kind → String
  | .transactional => "Transactional"
  | .direct => "Direct"

/-- The kind with the given name. -/
def ofName? (s : String) : Option Kind :=
  if s = "Transactional" then some .transactional
  else if s = "Direct" then some .direct
  else none

/-- The place of a kind in their order. -/
def rank : Kind → Nat
  | .transactional => 0
  | .direct => 1

instance : Ord Kind := ⟨fun a b => compare a.rank b.rank⟩

/-- A kind is written by its name. -/
def toJson (k : Kind) : Json :=
  .ofText k.name

/-- A kind is read from its name, or from an object that holds null under it. -/
def ofJson? : Json → Option Kind :=
  Json.choice ofName?

theorem ofName?_name (k : Kind) : ofName? k.name = some k := by
  cases k <;> rfl

end Kind

/-- The record of one completed iteration. -/
structure Sample where
  iteration : Nat
  kind : Kind
  highPriority : Bool
  latency : Duration
  /-- Whether a transaction committed; nothing for a direct set. -/
  committed : Option Bool
  deriving DecidableEq

namespace Sample

/-- The place of a truth value in the order. -/
def truthRank (b : Bool) : Nat := b.toNat

/-- The place of a truth value that may be missing. -/
def optionRank : Option Bool → Nat
  | none => 0
  | some b => b.toNat + 1

instance : Ord Sample := ⟨fun a b =>
  (compare a.iteration b.iteration).then <|
  (compare a.kind b.kind).then <|
  (compare (truthRank a.highPriority) (truthRank b.highPriority)).then <|
  (compare a.latency b.latency).then <|
  compare (optionRank a.committed) (optionRank b.committed)⟩

/-- The names of the fields, in their order. -/
def fieldNames : List String :=
  ["iteration", "kind", "high_priority", "latency", "committed"]

/-- A sample as a record. -/
def toJson (s : Sample) : Json :=
  .record [
    ("iteration", .ofNat s.iteration),
    ("kind", s.kind.toJson),
    ("high_priority", .bool s.highPriority),
    ("latency", .ofDuration s.latency),
    ("committed", .ofOption .bool s.committed)]

/-- A sample from a record. Only whether a transaction committed may be missing. -/
def ofJson? (v : Json) : Option Sample :=
  match Json.fields fieldNames false v with
  | some [iteration, kind, highPriority, latency, committed] => do
    let iteration ← Json.required (Json.natBelow Json.limit64) iteration
    let kind ← Json.required Kind.ofJson? kind
    let highPriority ← Json.required Json.truth? highPriority
    let latency ← Json.required Json.duration latency
    let committed ← Json.nullable Json.truth? committed
    return { iteration, kind, highPriority, latency, committed }
  | _ => none

end Sample

end StoreSoak
