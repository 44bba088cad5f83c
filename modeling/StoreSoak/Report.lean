import StoreSoak.Ratio
import StoreSoak.Worker

/-!
The report of a run.

`Accounts` are the facts that a run gathered; the `Report` is made of them alone. The tallies of all
workers are merged, every worker counts as completed, cancelled or failed, a failure before all
else, and the averages are taken over the merged tally.

* `Report.ofAccounts` makes the report; it fails where the merged tally overflows.
* `averageLatency` is the whole number of nanoseconds per iteration, 64 bits of them at most.
-/

namespace StoreSoak

/-- The facts that a run gathered. -/
structure Accounts where
  workers : List WorkerReport
  elapsed : Duration
  chains : Nat
  links : Nat
  sentinelKey : String
  /-- Whether the sentinel key exists; nothing if that could not be found out. -/
  sentinelExists : Option Bool
  deriving DecidableEq

/-- The report of a run. -/
structure Report where
  workers : Nat
  completed : Nat
  cancelled : Nat
  failed : Nat
  iterations : Nat
  transactional : Nat
  direct : Nat
  highPriority : Nat
  highPriorityRatio : Ratio
  abortedTransactions : Nat
  throttlePauses : Nat
  averageLatency : Duration
  maxLatency : Duration
  elapsed : Duration
  pressureChains : Nat
  pressureExecutions : Nat
  sentinelKey : String
  sentinelExists : Option Bool
  failures : List String
  deriving DecidableEq

namespace Report

/-- The tally of several tallies together, merged one after the other. -/
def mergeAll (t : Tally) : List Tally → Except Overflow Tally
  | [] => .ok t
  | u :: rest => (t.merge u).bind fun t => mergeAll t rest

/-- The most nanoseconds that an average can have. -/
def averageLimit : Nat := 18446744073709551615

/-- The latency per iteration, in whole nanoseconds; none at all without iterations. -/
def averageOf (t : Tally) : Duration :=
  if t.totals.iterations = 0 then Duration.zero
  else Duration.clamped (min (t.totals.latency / t.totals.iterations) averageLimit)

/-- The failures of the workers in their order. -/
def failuresOf (workers : List WorkerReport) : List WorkerError :=
  workers.filterMap WorkerReport.failure

/-- The report of the accounts. -/
def ofAccounts (a : Accounts) : Except Overflow Report :=
  (mergeAll Tally.empty (a.workers.map WorkerReport.tally)).map fun t =>
    let failures := failuresOf a.workers
    { workers := a.workers.length
      completed := (a.workers.filter fun w => w.succeeded).length
      cancelled := (a.workers.filter fun w => w.failure.isNone && w.cancelled).length
      failed := failures.length
      iterations := t.totals.iterations
      transactional := t.totals.transactional
      direct := t.totals.direct
      highPriority := t.totals.highPriority
      highPriorityRatio := Ratio.ofCounts t.totals.highPriority t.totals.iterations
      abortedTransactions := t.totals.aborted
      throttlePauses := t.totals.pauses
      averageLatency := averageOf t
      maxLatency := t.maxLatency
      elapsed := a.elapsed
      pressureChains := a.chains
      pressureExecutions := a.links
      sentinelKey := a.sentinelKey
      sentinelExists := a.sentinelExists
      failures := failures.map WorkerError.message }

end Report

end StoreSoak
