import StoreSoak.Measure.Sample

/-!
Tallies of samples and pauses.

`Totals` are what a collection of samples and pauses adds up to, however large: every field but one
is a sum, and the longest latency is a maximum. They form a commutative monoid. A `Tally` holds
totals that fit: counters below `2 ^ 64` and latencies within the range of durations.

* `Tally.ofTotals?` refuses what does not fit, the counters being looked at first.
* `consume`, `recordPause`, `merge` and `aggregate` add exactly and then ask whether the result
  fits, so that no order of adding makes a difference.
-/

namespace StoreSoak

/-- What a collection of samples and pauses adds up to. Latencies are in nanoseconds. -/
structure Totals where
  iterations : Nat
  transactional : Nat
  direct : Nat
  highPriority : Nat
  aborted : Nat
  pauses : Nat
  latency : Nat
  longest : Nat
  deriving DecidableEq

namespace Totals

/-- Nothing at all. -/
def zero : Totals := ⟨0, 0, 0, 0, 0, 0, 0, 0⟩

instance : Add Totals := ⟨fun a b =>
  { iterations := a.iterations + b.iterations
    transactional := a.transactional + b.transactional
    direct := a.direct + b.direct
    highPriority := a.highPriority + b.highPriority
    aborted := a.aborted + b.aborted
    pauses := a.pauses + b.pauses
    latency := a.latency + b.latency
    longest := max a.longest b.longest }⟩

/-- One sample. -/
def ofSample (s : Sample) : Totals :=
  { iterations := 1
    transactional := if s.kind = .transactional then 1 else 0
    direct := if s.kind = .direct then 1 else 0
    highPriority := if s.highPriority then 1 else 0
    aborted := if s.committed = some false then 1 else 0
    pauses := 0
    latency := s.latency.nanoseconds
    longest := s.latency.nanoseconds }

/-- One pause. -/
def pause : Totals := { zero with pauses := 1 }

/-- The first number that a counter does not hold. -/
def counterLimit : Nat := 18446744073709551616

/-- Every counter is below its limit. -/
def CountersFit (t : Totals) : Prop :=
  t.iterations < counterLimit ∧ t.transactional < counterLimit ∧ t.direct < counterLimit ∧
    t.highPriority < counterLimit ∧ t.aborted < counterLimit ∧ t.pauses < counterLimit

instance (t : Totals) : Decidable t.CountersFit := by
  unfold CountersFit; infer_instance

/-- The latencies are in the range of durations. -/
def LatencyFits (t : Totals) : Prop :=
  t.latency < Duration.limit ∧ t.longest < Duration.limit

instance (t : Totals) : Decidable t.LatencyFits := by
  unfold LatencyFits; infer_instance

end Totals

/-- What is out of range in totals that do not fit. -/
inductive Overflow where
  | counter
  | latency
  deriving DecidableEq, Repr

/-- The wording of an overflow. -/
def Overflow.message : Overflow → String
  | .counter => "attempt to add with overflow"
  | .latency => "overflow when adding durations"

/-- The counters of a worker, or of several workers together. -/
structure Tally where
  totals : Totals
  counters_fit : totals.CountersFit
  latency_fits : totals.LatencyFits
  deriving DecidableEq

namespace Tally

@[ext] theorem ext {a b : Tally} (h : a.totals = b.totals) : a = b := by
  cases a; cases b; simp_all

/-- The tally of nothing. -/
def empty : Tally := ⟨Totals.zero, by decide, by decide⟩

instance : Inhabited Tally := ⟨empty⟩

instance : EmptyCollection Tally := ⟨empty⟩

/-- The tally with the given totals, if they fit. -/
def ofTotals? (t : Totals) : Except Overflow Tally :=
  if hc : t.CountersFit then
    if hl : t.LatencyFits then .ok ⟨t, hc, hl⟩ else .error .latency
  else .error .counter

/-- The sum of all latencies. -/
def totalLatency (t : Tally) : Duration := ⟨t.totals.latency, t.latency_fits.1⟩

/-- The longest latency. -/
def maxLatency (t : Tally) : Duration := ⟨t.totals.longest, t.latency_fits.2⟩

/-- The tally with one more sample. -/
def consume (t : Tally) (s : Sample) : Except Overflow Tally :=
  ofTotals? (t.totals + Totals.ofSample s)

/-- The tally with one more pause. -/
def recordPause (t : Tally) : Except Overflow Tally :=
  ofTotals? (t.totals + Totals.pause)

/-- Two tallies in one. -/
def merge (a b : Tally) : Except Overflow Tally :=
  ofTotals? (a.totals + b.totals)

/-- The tally with further samples, one after the other. -/
def aggregate (t : Tally) : List Sample → Except Overflow Tally
  | [] => .ok t
  | s :: rest => (t.consume s).bind fun t => aggregate t rest

/-- The tally with so many further pauses. -/
def recordPauses (t : Tally) : Nat → Except Overflow Tally
  | 0 => .ok t
  | n + 1 => t.recordPause.bind fun t => recordPauses t n

theorem ofTotals?_totals (t : Tally) : ofTotals? t.totals = .ok t := by
  simp [ofTotals?, t.counters_fit, t.latency_fits]

theorem ofTotals?_eq_ok_iff {s : Totals} {t : Tally} : ofTotals? s = .ok t ↔ t.totals = s := by
  constructor
  · intro h
    rw [ofTotals?] at h
    split at h
    · split at h
      · cases h; rfl
      · cases h
    · cases h
  · rintro rfl
    exact ofTotals?_totals t

/-! ### As records -/

/-- The names of the fields, in their order. -/
def fieldNames : List String :=
  ["iterations", "transactional", "direct", "high_priority", "aborted_transactions",
    "throttle_pauses", "total_latency", "max_latency"]

/-- A tally as a record. -/
def toJson (t : Tally) : Json :=
  .record [
    ("iterations", .ofNat t.totals.iterations),
    ("transactional", .ofNat t.totals.transactional),
    ("direct", .ofNat t.totals.direct),
    ("high_priority", .ofNat t.totals.highPriority),
    ("aborted_transactions", .ofNat t.totals.aborted),
    ("throttle_pauses", .ofNat t.totals.pauses),
    ("total_latency", .ofDuration t.totalLatency),
    ("max_latency", .ofDuration t.maxLatency)]

/-- A tally from a record. -/
def ofJson? (v : Json) : Option Tally :=
  match Json.fields fieldNames false v with
  | some [iterations, transactional, direct, highPriority, aborted, pauses, total, longest] => do
    let iterations ← Json.required (Json.natBelow Json.limit64) iterations
    let transactional ← Json.required (Json.natBelow Json.limit64) transactional
    let direct ← Json.required (Json.natBelow Json.limit64) direct
    let highPriority ← Json.required (Json.natBelow Json.limit64) highPriority
    let aborted ← Json.required (Json.natBelow Json.limit64) aborted
    let pauses ← Json.required (Json.natBelow Json.limit64) pauses
    let total ← Json.required Json.duration total
    let longest ← Json.required Json.duration longest
    let totals : Totals :=
      { iterations, transactional, direct, highPriority, aborted, pauses
        latency := total.nanoseconds, longest := longest.nanoseconds }
    (ofTotals? totals).toOption
  | _ => none

end Tally

end StoreSoak
