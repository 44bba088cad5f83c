import StoreSoak.Proofs.Measure.Totals

/-!
The report accounts for every worker once.

* `Pass` is what a single pass over the workers gathers: it merges the tallies and puts every worker
  in its class, a failure before all else. `ofAccounts_eq_pass`: the report of the accounts is made
  of such a pass.
* `fits_sum_iff`: tallies merge where every counter and the latencies have room for their sum.
* `every_worker_counts_once`: what a report has to say of its workers, when there is none, and that
  the order of the workers decides about the order of the failures alone.
-/

namespace StoreSoak

/-! ### Sums of tallies -/

namespace Totals

/-- The counters of totals, all fields but the latencies. -/
def counterFields : List (Totals → ℕ) :=
  [iterations, transactional, direct, highPriority, aborted, pauses]

lemma countersFit_iff {t : Totals} : t.CountersFit ↔ ∀ f ∈ counterFields, f t < counterLimit := by
  simp [CountersFit, counterFields]

lemma counter_sum {f : Totals → ℕ} (hf : f ∈ counterFields) (ts : List Totals) :
    f ts.sum = (ts.map f).sum := by
  have hzero : f 0 = 0 := by
    revert f
    decide
  refine map_sum hzero (fun a b => ?_) ts
  simp only [counterFields, List.mem_cons, List.not_mem_nil, or_false] at hf
  rcases hf with rfl | rfl | rfl | rfl | rfl | rfl <;> rfl

/-- The longest latency of all is the maximum of the longest ones. -/
lemma longest_sum (ts : List Totals) : ts.sum.longest = (ts.map longest).foldr max 0 := by
  induction ts with
  | nil => rfl
  | cons t ts ih =>
      rw [List.sum_cons, List.map_cons, List.foldr_cons, ← ih]
      rfl

/-- Tallies have room for their sum where every counter and the latencies have; their longest
latency is in range with each of them. -/
lemma fits_sum_iff (us : List Tally) :
    (us.map Tally.totals).sum.Fits ↔
      (∀ f ∈ counterFields, (us.map fun u => f u.totals).sum < counterLimit) ∧
        (us.map fun u => u.totals.latency).sum < Duration.limit := by
  -- the longest latency always fits, as the greatest of some that do
  have hlongest : (us.map Tally.totals).sum.longest < Duration.limit := by
    induction us with
    | nil => decide
    | cons u us ih =>
        rw [List.map_cons, List.sum_cons]
        exact Nat.max_lt.mpr ⟨u.latency_fits.2, ih⟩
  have hlatency : (us.map Tally.totals).sum.latency = (us.map fun u => u.totals.latency).sum := by
    rw [map_sum (f := latency) rfl fun _ _ => rfl, List.map_map]
    rfl
  rw [Fits, LatencyFits, countersFit_iff, hlatency]
  constructor
  · rintro ⟨hcounters, hlt, -⟩
    refine ⟨fun f hf => ?_, hlt⟩
    have hsum := hcounters f hf
    rwa [counter_sum hf, List.map_map] at hsum
  · rintro ⟨hcounters, hlt⟩
    refine ⟨fun f hf => ?_, hlt, hlongest⟩
    rw [counter_sum hf, List.map_map]
    exact hcounters f hf

end Totals

namespace Report

variable {a : Accounts} {ws : List WorkerReport}

/-- Tallies merge if and only if there is room for their sum, and then hold it. -/
lemma mergeAll_eq_ok_iff {us : List Tally} {t : Tally} :
    mergeAll Tally.empty us = .ok t ↔ t.totals = (us.map Tally.totals).sum := by
  have hzero : Tally.empty.totals + (us.map Tally.totals).sum = (us.map Tally.totals).sum :=
    zero_add _
  constructor
  · intro h
    rw [totals_of_mergeAll h, hzero]
  · intro h
    have hfits : (Tally.empty.totals + (us.map Tally.totals).sum).Fits := by
      rw [hzero, ← h]
      exact ⟨t.counters_fit, t.latency_fits⟩
    obtain ⟨u, hu, htotals⟩ := mergeAll_of_fits hfits
    obtain rfl : u = t := Tally.ext (htotals.trans (hzero.trans h.symm))
    exact hu

/-! ### One pass over the workers -/

/-- What a pass over the workers has gathered. -/
structure Pass where
  tally : Tally
  completed : ℕ
  cancelled : ℕ
  failures : List String

namespace Pass

/-- Before the first worker. -/
def start : Pass := ⟨Tally.empty, 0, 0, []⟩

/-- Puts a worker in its class. -/
def classify (c : Pass) (w : WorkerReport) : Pass :=
  match w.failure with
  | some e => { c with failures := c.failures ++ [e.message] }
  | none =>
    if w.cancelled then { c with cancelled := c.cancelled + 1 }
    else { c with completed := c.completed + 1 }

/-- Goes through the workers: each is put in its class before its tally is merged. -/
def through (c : Pass) : List WorkerReport → Except Overflow Pass
  | [] => .ok c
  | w :: ws => (c.tally.merge w.tally).bind fun t => through { c.classify w with tally := t } ws

/-- The report that a pass over all workers makes. -/
def report (a : Accounts) (c : Pass) : Report :=
  { workers := a.workers.length
    completed := c.completed
    cancelled := c.cancelled
    failed := c.failures.length
    iterations := c.tally.totals.iterations
    transactional := c.tally.totals.transactional
    direct := c.tally.totals.direct
    highPriority := c.tally.totals.highPriority
    highPriorityRatio := Ratio.ofCounts c.tally.totals.highPriority c.tally.totals.iterations
    abortedTransactions := c.tally.totals.aborted
    throttlePauses := c.tally.totals.pauses
    averageLatency := averageOf c.tally
    maxLatency := c.tally.maxLatency
    elapsed := a.elapsed
    pressureChains := a.chains
    pressureExecutions := a.links
    sentinelKey := a.sentinelKey
    sentinelExists := a.sentinelExists
    failures := c.failures }

/-- The pass with the classes of further workers, and another tally. -/
def withClasses (c : Pass) (ws : List WorkerReport) (t : Tally) : Pass :=
  { tally := t
    completed := c.completed + ws.countP WorkerReport.succeeded
    cancelled := c.cancelled + ws.countP fun w => w.failure.isNone && w.cancelled
    failures := c.failures ++ (failuresOf ws).map WorkerError.message }

/-- A worker counts as completed exactly when it succeeded, and as cancelled when it was stopped and
did not fail. -/
lemma withClasses_classify (c : Pass) (w : WorkerReport) (ws : List WorkerReport) (t u : Tally) :
    withClasses { c.classify w with tally := u } ws t = c.withClasses (w :: ws) t := by
  obtain ⟨index, tally, cancelled, failure⟩ := w
  cases failure with
  | some e => simp [withClasses, classify, WorkerReport.succeeded, failuresOf]
  | none =>
      cases cancelled with
      | true =>
          simp [withClasses, classify, WorkerReport.succeeded, failuresOf]
          omega
      | false =>
          simp [withClasses, classify, WorkerReport.succeeded, failuresOf]
          omega

/-- A pass merges the tallies, and counts the workers of each class. -/
lemma through_eq (c : Pass) (ws : List WorkerReport) :
    c.through ws = (mergeAll c.tally (ws.map WorkerReport.tally)).map (c.withClasses ws) := by
  induction ws generalizing c with
  | nil =>
      rw [through, List.map_nil, mergeAll, Except.map, withClasses]
      simp [failuresOf]
  | cons w ws ih =>
      rw [through, List.map_cons, mergeAll]
      cases c.tally.merge w.tally with
      | error o => rfl
      | ok t =>
          show through { c.classify w with tally := t } ws = (mergeAll t _).map _
          rw [ih]
          congr 1
          funext u
          exact withClasses_classify c w ws u t

end Pass

/-- The report of the accounts is that of a pass over the workers. -/
lemma ofAccounts_eq_pass (a : Accounts) :
    ofAccounts a = (Pass.start.through a.workers).map (Pass.report a) := by
  rw [ofAccounts, Pass.through_eq]
  show _ = ((mergeAll Tally.empty (a.workers.map WorkerReport.tally)).map _).map _
  cases mergeAll Tally.empty (a.workers.map WorkerReport.tally) with
  | error o => rfl
  | ok t => simp [Except.map, Pass.withClasses, Pass.report, Pass.start, List.countP_eq_length_filter]

/-! ### What the report says -/

/-- A counter over all workers. -/
def sumOf (f : Totals → ℕ) (ws : List WorkerReport) : ℕ :=
  (ws.map fun w => f w.tally.totals).sum

/-- The true sum of a counter or of the latencies is out of range. -/
def OutOfRange (ws : List WorkerReport) : Prop :=
  (∃ f ∈ Totals.counterFields, Totals.counterLimit ≤ sumOf f ws) ∨
    Duration.limit ≤ sumOf Totals.latency ws

/-- A report that accounts for every worker once. -/
structure AccountsFor (r : Report) (ws : List WorkerReport) : Prop where
  workers : r.workers = ws.length
  classes : r.completed + r.cancelled + r.failed = r.workers
  completed : r.completed = ws.countP WorkerReport.succeeded
  failed : r.failed = r.failures.length
  failures : r.failures = (ws.filterMap WorkerReport.failure).map WorkerError.message
  iterations : r.iterations = sumOf Totals.iterations ws
  transactional : r.transactional = sumOf Totals.transactional ws
  direct : r.direct = sumOf Totals.direct ws
  highPriority : r.highPriority = sumOf Totals.highPriority ws
  abortedTransactions : r.abortedTransactions = sumOf Totals.aborted ws
  throttlePauses : r.throttlePauses = sumOf Totals.pauses ws
  averageLatency : r.averageLatency.nanoseconds =
    if r.iterations = 0 then 0 else min (sumOf Totals.latency ws / r.iterations) averageLimit
  maxLatency : r.maxLatency.nanoseconds =
    (ws.map fun w => w.tally.maxLatency.nanoseconds).foldr max 0

/-- Every worker is in one class. -/
lemma countP_classes (ws : List WorkerReport) :
    ws.countP WorkerReport.succeeded + (ws.countP fun w => w.failure.isNone && w.cancelled) +
      (ws.filterMap WorkerReport.failure).length = ws.length := by
  induction ws with
  | nil => rfl
  | cons w ws ih =>
      obtain ⟨index, tally, cancelled, failure⟩ := w
      cases failure with
      | some e =>
          simp [WorkerReport.succeeded]
          omega
      | none =>
          cases cancelled <;> simp [WorkerReport.succeeded] <;> omega

lemma sumOf_perm {f : Totals → ℕ} {ws' : List WorkerReport} (h : ws'.Perm ws) :
    sumOf f ws' = sumOf f ws :=
  (h.map _).sum_eq

/-- The totals of all workers, field by field. -/
lemma totals_sum (t : Tally)
    (h : t.totals = ((ws.map WorkerReport.tally).map Tally.totals).sum) :
    (∀ f ∈ Totals.latency :: Totals.counterFields, f t.totals = sumOf f ws) ∧
      t.totals.longest = (ws.map fun w => w.tally.maxLatency.nanoseconds).foldr max 0 := by
  rw [List.map_map] at h
  rw [h]
  refine ⟨fun f hf => ?_, ?_⟩
  · rcases List.mem_cons.mp hf with rfl | hf
    · rw [Totals.map_sum (f := Totals.latency) rfl fun _ _ => rfl, List.map_map]
      rfl
    · rw [Totals.counter_sum hf, List.map_map]
      rfl
  · rw [Totals.longest_sum, List.map_map]
    rfl

/-- There is no report exactly when a true sum is out of range. -/
lemma exists_error_iff (a : Accounts) :
    (∃ o, ofAccounts a = .error o) ↔ OutOfRange a.workers := by
  -- a true sum is out of range exactly where the sum of all totals does not fit
  have hrange : OutOfRange a.workers ↔
      ¬((a.workers.map WorkerReport.tally).map Tally.totals).sum.Fits := by
    rw [Totals.fits_sum_iff, not_and_or]
    push Not
    simp only [List.map_map]
    rfl
  rw [hrange, ofAccounts]
  cases hm : mergeAll Tally.empty (a.workers.map WorkerReport.tally) with
  | ok t =>
      have hfits : ((a.workers.map WorkerReport.tally).map Tally.totals).sum.Fits := by
        rw [← mergeAll_eq_ok_iff.mp hm]
        exact ⟨t.counters_fit, t.latency_fits⟩
      exact iff_of_false (by rintro ⟨o, ho⟩; cases ho) (not_not_intro hfits)
  | error o =>
      refine iff_of_true ⟨o, rfl⟩ fun hfits => ?_
      obtain ⟨t, ht, htotals⟩ := Tally.ofTotals?_of_fits hfits
      rw [mergeAll_eq_ok_iff.mpr htotals] at hm
      cases hm

lemma accountsFor_of_eq {r : Report} (h : ofAccounts a = .ok r) : r.AccountsFor a.workers := by
  rw [ofAccounts] at h
  cases hm : mergeAll Tally.empty (a.workers.map WorkerReport.tally) with
  | error o =>
      rw [hm] at h
      cases h
  | ok t =>
      rw [hm] at h
      obtain rfl := Except.ok.inj h
      obtain ⟨hsums, hlongest⟩ := totals_sum t (mergeAll_eq_ok_iff.mp hm)
      simp only [List.forall_mem_cons, Totals.counterFields] at hsums
      obtain ⟨hlatency, hiterations, htransactional, hdirect, hhigh, haborted, hpauses, -⟩ := hsums
      refine ⟨rfl, ?_, ?_, ?_, rfl, hiterations, htransactional, hdirect, hhigh, haborted, hpauses,
        ?_, hlongest⟩
      · dsimp only
        rw [← countP_classes a.workers, List.countP_eq_length_filter, List.countP_eq_length_filter]
        rfl
      · exact (List.countP_eq_length_filter ..).symm
      · exact (List.length_map _).symm
      · dsimp only
        rw [← hlatency, averageOf]
        split
        · rfl
        · have hlimit : averageLimit < Duration.limit := by decide
          rw [Duration.clamped, dif_pos (Nat.lt_of_le_of_lt (Nat.min_le_right _ _) hlimit)]

lemma ofAccounts_perm {r : Report} (hws : ws.Perm a.workers) (h : ofAccounts a = .ok r) :
    ∃ failures, failures.Perm r.failures ∧
      ofAccounts { a with workers := ws } = .ok { r with failures } := by
  rw [ofAccounts] at h
  cases hm : mergeAll Tally.empty (a.workers.map WorkerReport.tally) with
  | error o =>
      rw [hm] at h
      cases h
  | ok t =>
      rw [hm] at h
      obtain rfl := Except.ok.inj h
      have hfailures : (failuresOf ws).Perm (failuresOf a.workers) := hws.filterMap _
      -- the merged totals are a sum, and a sum knows no order
      have hmerge : mergeAll Tally.empty (ws.map WorkerReport.tally) = .ok t := by
        rw [mergeAll_eq_ok_iff, mergeAll_eq_ok_iff.mp hm]
        exact (((hws.map _).map _).sum_eq).symm
      refine ⟨(failuresOf ws).map WorkerError.message, hfailures.map _, ?_⟩
      rw [ofAccounts, hmerge]
      simp only [Except.map, hws.length_eq, hfailures.length_eq, (hws.filter _).length_eq]

/-- **A report accounts for every worker once.**

The report is what a single pass over the workers gathers. Each worker has completed, was cancelled
or has failed; it counts as completed exactly if it succeeded, and a worker that was cancelled and
has failed counts as failed. The texts of the failures come in the order of the workers, each
counter is the sum over the workers and the longest latency is their maximum. There is no report
exactly when the true sum of a counter or of the latencies is out of range. The order of the workers
makes a difference for the order of the failures alone. -/
theorem every_worker_counts_once (a : Accounts) :
    ofAccounts a = (Pass.start.through a.workers).map (Pass.report a) ∧
      (∀ r, ofAccounts a = .ok r → r.AccountsFor a.workers) ∧
      ((∃ o, ofAccounts a = .error o) ↔ OutOfRange a.workers) ∧
      ∀ ws, ws.Perm a.workers →
        ((∃ o, ofAccounts { a with workers := ws } = .error o) ↔ ∃ o, ofAccounts a = .error o) ∧
          ∀ r, ofAccounts a = .ok r → ∃ failures, failures.Perm r.failures ∧
            ofAccounts { a with workers := ws } = .ok { r with failures } := by
  refine ⟨ofAccounts_eq_pass a, fun r hr => accountsFor_of_eq hr, exists_error_iff a,
    fun ws hws => ⟨?_, fun r hr => ofAccounts_perm hws hr⟩⟩
  rw [exists_error_iff, exists_error_iff]
  simp only [OutOfRange, sumOf_perm hws]

/-- Four workers, one of which was stopped and has failed, in their order and the other way
round. -/
theorem every_worker_counts_once_at_overlap :
    let tally : Tally := ⟨⟨3, 1, 2, 1, 0, 1, 50, 30⟩, by decide, by decide⟩
    let ws : List WorkerReport :=
      [⟨0, tally, false, none⟩, ⟨1, tally, true, some (.guarded 1 2)⟩, ⟨2, tally, true, none⟩,
        ⟨3, Tally.empty, false, some (.panicked 3 "boom")⟩]
    let a : Accounts := ⟨ws, Duration.zero, 0, 0, "sentinel", some true⟩
    ∃ r, ofAccounts a = .ok r ∧ (r.completed, r.cancelled, r.failed) = (1, 1, 2) ∧
      r.AccountsFor ws ∧ ∃ failures, failures.Perm r.failures ∧
        ofAccounts { a with workers := ws.reverse } = .ok { r with failures } := by
  intro tally ws a
  obtain ⟨-, haccounts, -, hperm⟩ := every_worker_counts_once a
  have hcounts : (ofAccounts a).toOption.map (fun r => (r.completed, r.cancelled, r.failed)) =
      some (1, 1, 2) := by decide +kernel
  cases hr : ofAccounts a with
  | error o =>
      rw [hr] at hcounts
      cases hcounts
  | ok r =>
      rw [hr] at hcounts
      exact ⟨r, rfl, Option.some.inj hcounts, haccounts r hr,
        (hperm ws.reverse ws.reverse_perm).2 r hr⟩

end Report

end StoreSoak
