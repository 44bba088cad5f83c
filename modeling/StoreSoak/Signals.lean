/-!
The two signals that workers watch.

Start and shutdown are flags that are raised once and never lowered. The start signal can be raised
as long as the lifecycle exists, the shutdown signal as long as the lifecycle or the shutdown handle
does. To wait for a signal is over when the signal is raised, and when nobody is left to raise it.

* `waitStart` and `waitShutdown` say how such a wait stands.
* A worker waits for both at once and is released by either; `outcome` is the answer it gets from
  the one that it notices. `started` is the answer as soon as there is one.
-/

namespace StoreSoak

/-- The signals, and who can still raise them. -/
structure Signals where
  /-- The start signal has been raised. -/
  fired : Bool
  /-- The shutdown signal has been raised. -/
  shutdown : Bool
  /-- The lifecycle exists. -/
  lifecycle : Bool
  /-- A shutdown handle exists. -/
  handle : Bool
  deriving DecidableEq, Repr

namespace Signals

/-- No signal raised, the lifecycle and a handle in place. -/
def fresh : Signals := ⟨false, false, true, true⟩

/-- How a wait for a signal stands. -/
inductive Wait where
  | pending
  /-- The signal was raised. -/
  | fulfilled
  /-- Nobody is left to raise it. -/
  | abandoned
  deriving DecidableEq, Repr

/-- The wait for a signal, given whether it was raised and whether somebody can raise it. -/
def Wait.of (raised sender : Bool) : Wait :=
  if raised then .fulfilled else if sender then .pending else .abandoned

/-- The wait for the start signal. -/
def waitStart (s : Signals) : Wait :=
  Wait.of s.fired s.lifecycle

/-- The wait for the shutdown signal. -/
def waitShutdown (s : Signals) : Wait :=
  Wait.of s.shutdown (s.lifecycle || s.handle)

/-- The two waits between which a worker is released. -/
inductive Branch where
  | start
  | shutdown
  deriving DecidableEq, Repr

/-- Whether a wait is over. -/
def ready (s : Signals) : Branch → Bool
  | .start => s.waitStart ≠ .pending
  | .shutdown => s.waitShutdown ≠ .pending

/-- The answer to a worker that notices the end of a wait: go ahead only if the start was signalled
and no shutdown is. -/
def outcome (s : Signals) : Branch → Bool
  | .start => s.waitStart = .fulfilled && !s.shutdown
  | .shutdown => false

/-- The answer to a worker that waits for its start, as soon as there is one. A shutdown decides at
once; else the start signal is noticed first. -/
def started (s : Signals) : Option Bool :=
  if s.shutdown then some false
  else if s.ready .start then some (s.outcome .start)
  else if s.ready .shutdown then some (s.outcome .shutdown)
  else none

/-- The answer to a task that waits for the shutdown; without anybody to signal it, it waits for
ever. -/
def cancelled (s : Signals) : Option Bool :=
  if s.shutdown then some true else none

/-- Raises the start signal, if the lifecycle exists. -/
def start (s : Signals) : Signals :=
  if s.lifecycle then { s with fired := true } else s

/-- Raises the shutdown signal, if somebody can. -/
def cancel (s : Signals) : Signals :=
  if s.lifecycle || s.handle then { s with shutdown := true } else s

/-- Gives the lifecycle up. -/
def dropLifecycle (s : Signals) : Signals :=
  { s with lifecycle := false }

/-- Gives the shutdown handle up. -/
def dropHandle (s : Signals) : Signals :=
  { s with handle := false }

end Signals

end StoreSoak
