/-!
Spans of time.

A duration is a number of nanoseconds below `2 ^ 64` seconds, the bound being part of the type. It
is read as whole seconds and a rest of nanoseconds (`seconds`, `subsecond`), and `ofParts?` puts the
two together again.

* `ofNanoseconds?` refuses what is out of range.
* `clamped` takes the longest duration for what is out of range.
* `waited` is how long a wait lasts that is meant to be so long: thirty years at most.
* The order is that of the nanoseconds.
-/

namespace StoreSoak

namespace Duration

/-- Nanoseconds in a second. -/
def nanosecondsPerSecond : Nat := 1000000000

/-- The nanoseconds of `2 ^ 64` seconds, the first number out of range. -/
def limit : Nat := 18446744073709551616 * 1000000000

end Duration

/-- A span of time, in nanoseconds. -/
structure Duration where
  nanoseconds : Nat
  in_range : nanoseconds < Duration.limit
  deriving DecidableEq

namespace Duration

@[ext] theorem ext {a b : Duration} (h : a.nanoseconds = b.nanoseconds) : a = b := by
  cases a; cases b; simp_all

/-- No time at all. -/
def zero : Duration := ⟨0, by decide⟩

instance : Inhabited Duration := ⟨zero⟩

instance : LE Duration := ⟨fun a b => a.nanoseconds ≤ b.nanoseconds⟩

instance (a b : Duration) : Decidable (a ≤ b) :=
  inferInstanceAs (Decidable (a.nanoseconds ≤ b.nanoseconds))

instance : Ord Duration := ⟨fun a b => compare a.nanoseconds b.nanoseconds⟩

/-- A number of nanoseconds, when it is in range. -/
def ofNanoseconds? (n : Nat) : Option Duration :=
  if h : n < limit then some ⟨n, h⟩ else none

/-- A number of nanoseconds; the longest duration when it is out of range. -/
def clamped (n : Nat) : Duration :=
  if h : n < limit then ⟨n, h⟩ else ⟨limit - 1, by decide⟩

/-- Whole seconds and nanoseconds, when their sum is in range. -/
def ofParts? (seconds nanoseconds : Nat) : Option Duration :=
  ofNanoseconds? (seconds * nanosecondsPerSecond + nanoseconds)

/-- Milliseconds, of which every 64-bit count is in range. -/
def ofMilliseconds (ms : Nat) : Duration :=
  clamped (ms * 1000000)

/-- Seconds, of which every 64-bit count is in range. -/
def ofSeconds (s : Nat) : Duration :=
  clamped (s * nanosecondsPerSecond)

/-- The whole seconds. -/
def seconds (d : Duration) : Nat :=
  d.nanoseconds / nanosecondsPerSecond

/-- The nanoseconds beyond the whole seconds. -/
def subsecond (d : Duration) : Nat :=
  d.nanoseconds % nanosecondsPerSecond

/-- The longest wait, thirty years of 365 days, in nanoseconds. -/
def longestWait : Nat := 30 * 365 * 86400 * nanosecondsPerSecond

/-- The nanoseconds that a wait of this length lasts. -/
def waited (d : Duration) : Nat :=
  min d.nanoseconds longestWait

theorem nanoseconds_eq (d : Duration) :
    d.seconds * nanosecondsPerSecond + d.subsecond = d.nanoseconds := by
  simp only [seconds, subsecond, Nat.mul_comm]
  exact Nat.div_add_mod _ _

theorem subsecond_lt (d : Duration) : d.subsecond < nanosecondsPerSecond :=
  Nat.mod_lt _ (by decide)

theorem seconds_lt (d : Duration) : d.seconds < 18446744073709551616 := by
  have h := d.in_range
  rw [limit] at h
  simp only [seconds, nanosecondsPerSecond]
  omega

theorem ofParts?_seconds_subsecond (d : Duration) : ofParts? d.seconds d.subsecond = some d := by
  simp [ofParts?, ofNanoseconds?, nanoseconds_eq, d.in_range]

theorem nanoseconds_ofMilliseconds {ms : Nat} (h : ms < 18446744073709551616) :
    (ofMilliseconds ms).nanoseconds = ms * 1000000 := by
  rw [ofMilliseconds, clamped, dif_pos (by rw [limit]; omega)]

theorem nanoseconds_ofSeconds {s : Nat} (h : s < 18446744073709551616) :
    (ofSeconds s).nanoseconds = s * nanosecondsPerSecond := by
  rw [ofSeconds, clamped, dif_pos (by rw [limit, nanosecondsPerSecond]; omega)]

end Duration

end StoreSoak
