import StoreSoak.Proofs.Measure.Tallying
import StoreSoak.Proofs.Report.Classes

/-!
The latencies of a report agree with each other.

A tally that was built from nothing has measured what it counts: each of its iterations is of one
kind, has a high priority at most once and takes the longest latency at most. This holds of one
sample and of a pause, and it is kept when totals are added, so it holds of all workers together.

* `Totals.Measured` is the invariant, `Tallying.measured` says that every way of tallying keeps it.
* `Report.averageOf_le`: then the average is at most the longest latency.
* `Report.figures_agree`: the figures of a report agree, and it is made unless the pauses overflow.
-/

namespace StoreSoak

namespace Totals

/-- Totals that can have been measured. -/
structure Measured (t : Totals) : Prop where
  kinds : t.direct + t.transactional = t.iterations
  highPriority : t.highPriority ≤ t.iterations
  aborted : t.aborted ≤ t.iterations
  longest_le : t.longest ≤ t.latency
  latency_le : t.latency ≤ t.iterations * t.longest

lemma Measured.zero : (0 : Totals).Measured :=
  ⟨rfl, Nat.le_refl 0, Nat.le_refl 0, Nat.le_refl 0, Nat.le_refl 0⟩

lemma Measured.pause : pause.Measured :=
  ⟨rfl, Nat.le_refl 0, Nat.le_refl 0, Nat.le_refl 0, Nat.le_refl 0⟩

lemma Measured.ofSample (s : Sample) : (ofSample s).Measured where
  kinds := by cases h : s.kind <;> simp [Totals.ofSample, h]
  highPriority := by
    show (if s.highPriority then 1 else 0) ≤ 1
    split <;> decide
  aborted := by
    show (if s.committed = some false then 1 else 0) ≤ 1
    split <;> decide
  longest_le := Nat.le_refl _
  latency_le := (Nat.one_mul _).ge

/-- Each of two latencies is bounded by the longer of the longest ones. -/
lemma Measured.add {a b : Totals} (ha : a.Measured) (hb : b.Measured) : (a + b).Measured where
  kinds := by
    show (a.direct + b.direct) + (a.transactional + b.transactional) = a.iterations + b.iterations
    rw [← ha.kinds, ← hb.kinds]
    omega
  highPriority := Nat.add_le_add ha.highPriority hb.highPriority
  aborted := Nat.add_le_add ha.aborted hb.aborted
  longest_le := Consistent.add ha.longest_le hb.longest_le
  latency_le :=
    calc a.latency + b.latency
      _ ≤ a.iterations * a.longest + b.iterations * b.longest :=
        Nat.add_le_add ha.latency_le hb.latency_le
      _ ≤ a.iterations * max a.longest b.longest + b.iterations * max a.longest b.longest :=
        Nat.add_le_add (Nat.mul_le_mul_left _ (Nat.le_max_left _ _))
          (Nat.mul_le_mul_left _ (Nat.le_max_right _ _))
      _ = (a.iterations + b.iterations) * max a.longest b.longest := (Nat.add_mul _ _ _).symm

lemma Measured.sum {ts : List Totals} (h : ∀ t ∈ ts, t.Measured) : ts.sum.Measured := by
  induction ts with
  | nil => exact .zero
  | cons t ts ih =>
      rw [List.sum_cons]
      exact (h t List.mem_cons_self).add (ih fun u hu => h u (List.mem_cons_of_mem t hu))

/-- All counters but that of the pauses are in range with the number of iterations. -/
lemma Measured.fits_iff {t : Totals} (h : t.Measured) (hiterations : t.iterations < counterLimit)
    (hlatency : t.latency < Duration.limit) : t.Fits ↔ t.pauses < counterLimit := by
  have hkinds := h.kinds
  have hlatencies : t.LatencyFits := ⟨hlatency, Nat.lt_of_le_of_lt h.longest_le hlatency⟩
  refine ⟨fun hfits => hfits.1.2.2.2.2.2, fun hpauses => ⟨⟨hiterations, ?_, ?_, ?_, ?_, hpauses⟩,
    hlatencies⟩⟩
  · omega
  · omega
  · exact Nat.lt_of_le_of_lt h.highPriority hiterations
  · exact Nat.lt_of_le_of_lt h.aborted hiterations

end Totals

/-! ### Steps of tallying -/

namespace Tally

variable {t u v : Tally}

/-- An addition that fits keeps the invariant. -/
lemma measured_of_add {d : Totals} (ht : t.totals.Measured) (hd : d.Measured)
    (h : ofTotals? (t.totals + d) = .ok u) : u.totals.Measured := by
  rw [ofTotals?_eq_ok_iff.mp h]
  exact ht.add hd

lemma measured_aggregate {batch : List Sample} (ht : t.totals.Measured)
    (h : t.aggregate batch = .ok u) : u.totals.Measured := by
  induction batch generalizing t with
  | nil =>
      obtain rfl := Except.ok.inj h
      exact ht
  | cons s batch ih =>
      rw [aggregate] at h
      cases hs : t.consume s with
      | error o =>
          rw [hs] at h
          cases h
      | ok v =>
          rw [hs] at h
          exact ih (measured_of_add ht (.ofSample s) hs) h

end Tally

/-- **Every tally that was built from nothing has measured what it counts.** -/
theorem Tallying.measured {w : Tallying} {t : Tally} (h : w.tally = .ok t) :
    t.totals.Measured := by
  have hbind {r : Except Overflow Tally} {f : Tally → Except Overflow Tally} {t : Tally}
      (h : r.bind f = .ok t) : ∃ u, r = .ok u ∧ f u = .ok t := by
    cases r with
    | error o => cases h
    | ok u => exact ⟨u, rfl, h⟩
  induction w generalizing t with
  | fresh =>
      obtain rfl := Except.ok.inj h
      exact .zero
  | consume w s ih =>
      obtain ⟨u, hu, hs⟩ := hbind h
      exact Tally.measured_of_add (ih hu) (.ofSample s) hs
  | aggregate w batch ih =>
      obtain ⟨u, hu, hbatch⟩ := hbind h
      exact Tally.measured_aggregate (ih hu) hbatch
  | recordPause w ih =>
      obtain ⟨u, hu, hpause⟩ := hbind h
      exact Tally.measured_of_add (ih hu) .pause hpause
  | merge a b iha ihb =>
      obtain ⟨u, hu, hmerge⟩ := hbind h
      obtain ⟨v, hv, hmerge⟩ := hbind hmerge
      exact Tally.measured_of_add (iha hu) (ihb hv) hmerge

namespace Report

variable {a : Accounts} {ws : List WorkerReport}

/-! ### All workers together -/

/-- The totals of all workers. -/
def totalsOf (ws : List WorkerReport) : Totals :=
  (ws.map fun w => w.tally.totals).sum

lemma sumOf_eq {f : Totals → ℕ} (hf : f ∈ Totals.latency :: Totals.counterFields)
    (ws : List WorkerReport) : sumOf f ws = f (totalsOf ws) := by
  rcases List.mem_cons.mp hf with rfl | hf
  · rw [totalsOf, Totals.map_sum (f := Totals.latency) rfl fun _ _ => rfl, List.map_map]
    rfl
  · rw [totalsOf, Totals.counter_sum hf, List.map_map]
    rfl

lemma totalsOf_measured (h : ∀ w ∈ ws, ∃ way : Tallying, way.tally = .ok w.tally) :
    (totalsOf ws).Measured := by
  refine .sum fun t ht => ?_
  obtain ⟨w, hw, rfl⟩ := List.mem_map.mp ht
  obtain ⟨way, hway⟩ := h w hw
  exact way.measured hway

/-- A report is made of a tally that holds the totals of all workers. -/
lemma exists_tally_of_eq {r : Report} (h : ofAccounts a = .ok r) :
    ∃ t : Tally, t.totals = totalsOf a.workers ∧ r.iterations = t.totals.iterations ∧
      r.transactional = t.totals.transactional ∧ r.direct = t.totals.direct ∧
      r.highPriority = t.totals.highPriority ∧
      r.highPriorityRatio = Ratio.ofCounts t.totals.highPriority t.totals.iterations ∧
      r.averageLatency = averageOf t ∧ r.maxLatency = t.maxLatency := by
  rw [ofAccounts] at h
  cases hm : mergeAll Tally.empty (a.workers.map WorkerReport.tally) with
  | error o =>
      rw [hm] at h
      cases h
  | ok t =>
      rw [hm] at h
      obtain rfl := Except.ok.inj h
      refine ⟨t, ?_, rfl, rfl, rfl, rfl, rfl, rfl, rfl⟩
      rw [mergeAll_eq_ok_iff.mp hm, List.map_map]
      rfl

/-- There is a report exactly when there is room for the totals of all workers. -/
lemma exists_ok_iff (a : Accounts) : (∃ r, ofAccounts a = .ok r) ↔ (totalsOf a.workers).Fits := by
  constructor
  · rintro ⟨r, hr⟩
    obtain ⟨t, ht, -⟩ := exists_tally_of_eq hr
    rw [← ht]
    exact ⟨t.counters_fit, t.latency_fits⟩
  · intro hfits
    obtain ⟨t, -, ht⟩ := Tally.ofTotals?_of_fits hfits
    have hm : mergeAll Tally.empty (a.workers.map WorkerReport.tally) = .ok t := by
      rw [mergeAll_eq_ok_iff, ht, List.map_map]
      rfl
    rw [ofAccounts, hm]
    exact ⟨_, rfl⟩

/-! ### The average -/

/-- A quotient, which there is none of by zero. -/
def quotient? (m n : ℕ) : Option ℕ :=
  if n = 0 then none else some (m / n)

/-- The average, worked out with quotients that may be missing. -/
def average? (t : Tally) : Option Duration :=
  if t.totals.iterations = 0 then some Duration.zero
  else (quotient? t.totals.latency t.totals.iterations).map fun n =>
    Duration.clamped (min n averageLimit)

/-- Nothing is divided by zero for the average. -/
lemma average?_eq (t : Tally) : average? t = some (averageOf t) := by
  rw [average?, averageOf]
  split
  · rfl
  · rename_i hn
    rw [quotient?, if_neg hn]
    rfl

lemma nanoseconds_averageOf (t : Tally) :
    (averageOf t).nanoseconds = if t.totals.iterations = 0 then 0
      else min (t.totals.latency / t.totals.iterations) averageLimit := by
  rw [averageOf]
  split
  · rfl
  · have hlimit : averageLimit < Duration.limit := by decide
    rw [Duration.clamped, dif_pos (Nat.lt_of_le_of_lt (Nat.min_le_right _ _) hlimit)]

/-- The average is at most the longest latency. -/
lemma averageOf_le {t : Tally} (h : t.totals.Measured) : averageOf t ≤ t.maxLatency := by
  show (averageOf t).nanoseconds ≤ t.totals.longest
  rw [nanoseconds_averageOf]
  split
  · exact Nat.zero_le _
  · exact (Nat.min_le_left _ _).trans (Nat.div_le_of_le_mul h.latency_le)

/-! ### Reports -/

/-- Figures of a report that agree with each other, and with the sum of all latencies and the number
of all iterations. The average is exact where it has 64 bits. -/
structure FiguresAgree (r : Report) (total n : ℕ) : Prop where
  iterations : r.iterations = n
  kinds : r.direct + r.transactional = n
  highPriority : r.highPriority ≤ n
  average_le : r.averageLatency ≤ r.maxLatency
  longest_le : r.maxLatency.nanoseconds ≤ total
  total_le : total ≤ n * r.maxLatency.nanoseconds
  exact : 0 < n → total / n < 2 ^ 64 → r.averageLatency.nanoseconds = total / n
  beyond : 0 < n → 2 ^ 64 ≤ total / n → r.averageLatency.nanoseconds = 2 ^ 64 - 1
  idle : n = 0 → r.averageLatency = Duration.zero ∧ r.highPriorityRatio = Ratio.zero

lemma figuresAgree_of_eq {r : Report} (hmeasured : (totalsOf a.workers).Measured)
    (h : ofAccounts a = .ok r) :
    r.FiguresAgree (sumOf Totals.latency a.workers) (sumOf Totals.iterations a.workers) := by
  obtain ⟨t, ht, hiterations, htransactional, hdirect, hhigh, hratio, haverage, hlongest⟩ :=
    exists_tally_of_eq h
  -- the sums over the reports are those of the merged tally
  rw [sumOf_eq (by simp [Totals.counterFields]), sumOf_eq (by simp [Totals.counterFields]), ← ht]
  rw [← ht] at hmeasured
  have hlimit : averageLimit = 2 ^ 64 - 1 := rfl
  have hnanoseconds := nanoseconds_averageOf t
  rw [← haverage] at hnanoseconds
  refine ⟨hiterations, ?_, ?_, ?_, ?_, ?_, ?_, ?_, ?_⟩
  · rw [hdirect, htransactional, hmeasured.kinds]
  · rw [hhigh]
    exact hmeasured.highPriority
  · rw [haverage, hlongest]
    exact averageOf_le hmeasured
  · rw [hlongest]
    exact hmeasured.longest_le
  · rw [hlongest]
    exact hmeasured.latency_le
  · intro hpos hlt
    rw [hnanoseconds, if_neg (Nat.ne_of_gt hpos), Nat.min_eq_left (by omega)]
  · intro hpos hle
    rw [hnanoseconds, if_neg (Nat.ne_of_gt hpos), Nat.min_eq_right (by omega), hlimit]
  · intro hzero
    rw [haverage, hratio, averageOf, if_pos hzero, Ratio.ofCounts, hzero]
    exact ⟨rfl, if_pos (by simp)⟩

/-- **The latency figures of a report are consistent.** Of workers whose tallies were each built
from nothing, with all their iterations and latencies in range, there is a report exactly if their
pauses are in range too. Every iteration in it is of one kind and those of a high priority are among
them; the average is at most the longest latency, this at most the sum of all, and this at most the
longest one for every iteration. The average is the whole number of nanoseconds for an iteration, or
the greatest number of 64 bits where it has more; it is zero without iterations, and nothing is
divided by zero. -/
theorem figures_agree (a : Accounts)
    (hbuilt : ∀ w ∈ a.workers, ∃ way : Tallying, way.tally = .ok w.tally)
    (hiterations : sumOf Totals.iterations a.workers < Totals.counterLimit)
    (hlatency : sumOf Totals.latency a.workers < Duration.limit) :
    ((∃ r, ofAccounts a = .ok r) ↔ sumOf Totals.pauses a.workers < Totals.counterLimit) ∧
      (∀ r, ofAccounts a = .ok r →
        r.FiguresAgree (sumOf Totals.latency a.workers) (sumOf Totals.iterations a.workers)) ∧
      ∀ t : Tally, average? t = some (averageOf t) := by
  have hmeasured := totalsOf_measured hbuilt
  refine ⟨?_, fun r => figuresAgree_of_eq hmeasured, average?_eq⟩
  rw [sumOf_eq (by simp [Totals.counterFields])] at hiterations hlatency ⊢
  rw [exists_ok_iff, hmeasured.fits_iff hiterations hlatency]

/-- Two workers, with latencies so long that the average has more than 64 bits. -/
theorem figures_agree_beyond_limit :
    let long : Sample := ⟨1, .direct, true, ⟨60000000000000000000, by decide⟩, none⟩
    let short : Sample := ⟨1, .direct, false, ⟨3, by decide⟩, none⟩
    let first : Tally :=
      ⟨⟨1, 0, 1, 1, 0, 1, 60000000000000000000, 60000000000000000000⟩, by decide, by decide⟩
    let second : Tally := ⟨⟨1, 0, 1, 0, 0, 0, 3, 3⟩, by decide, by decide⟩
    let ws : List WorkerReport := [⟨0, first, false, none⟩, ⟨1, second, true, none⟩]
    let a : Accounts := ⟨ws, Duration.zero, 0, 0, "sentinel", none⟩
    (Tallying.recordPause (.consume .fresh long)).tally = .ok first ∧
      (Tallying.merge .fresh (.aggregate .fresh [short])).tally = .ok second ∧
      ∃ r, ofAccounts a = .ok r ∧ r.FiguresAgree 60000000000000000003 2 ∧
        r.averageLatency.nanoseconds = 2 ^ 64 - 1 := by
  intro long short first second ws a
  have hfirst : (Tallying.recordPause (.consume .fresh long)).tally = .ok first := by decide
  have hsecond : (Tallying.merge .fresh (.aggregate .fresh [short])).tally = .ok second := rfl
  have hbuilt : ∀ w ∈ a.workers, ∃ way : Tallying, way.tally = .ok w.tally := by
    simp only [a, ws, List.forall_mem_cons]
    exact ⟨⟨_, hfirst⟩, ⟨_, hsecond⟩, nofun⟩
  have htotal : sumOf Totals.latency a.workers = 60000000000000000003 := by decide
  have hnumber : sumOf Totals.iterations a.workers = 2 := rfl
  obtain ⟨hreport, hfigures, -⟩ := figures_agree a hbuilt (by decide) (by decide)
  obtain ⟨r, hr⟩ := hreport.mpr (by decide)
  have hagree := hfigures r hr
  rw [htotal, hnumber] at hagree
  exact ⟨hfirst, hsecond, r, hr, hagree, hagree.beyond (by decide) (by decide)⟩

end Report

namespace Tallying

/-- A tally of one pause, merged with itself so many times. -/
def doubled : ℕ → Tallying
  | 0 => .recordPause .fresh
  | k + 1 => .merge (doubled k) (doubled k)

lemma samples_doubled (k : ℕ) : (doubled k).samples = [] := by
  induction k with
  | zero => rfl
  | succ k ih => rw [doubled, samples, ih, List.append_nil]

lemma pauses_doubled (k : ℕ) : (doubled k).pauses = 2 ^ k := by
  induction k with
  | zero => rfl
  | succ k ih => rw [doubled, pauses, ih, Nat.two_pow_succ]

/-- There is room for the pauses up to the sixty-third time. -/
lemma exists_tally_doubled {k : ℕ} (hk : k < 64) :
    ∃ t, (doubled k).tally = .ok t ∧ t.totals = Totals.ofWork [] (2 ^ k) := by
  cases h : (doubled k).tally with
  | ok t => exact ⟨t, rfl, by rw [totals_of_tally h, samples_doubled, pauses_doubled]⟩
  | error o =>
      have hpauses : 2 ^ k < Totals.counterLimit := Nat.pow_lt_pow_right (by decide) hk
      have hover := (doubled k).exists_error_iff.mp ⟨o, h⟩
      rw [samples_doubled, pauses_doubled] at hover
      rcases hover with ⟨n, hn, hle⟩ | hle
      · simp only [Totals.counters, Totals.ofWork, List.mem_cons, List.length_nil,
          List.countP_nil, List.not_mem_nil, or_false] at hn
        rcases hn with rfl | rfl | rfl | rfl | rfl | rfl
        case inr.inr.inr.inr.inr => omega
        all_goals exact absurd hle (by decide)
      · exact absurd hle (by decide)

end Tallying

/-- Two workers whose pauses are out of range together, though neither has an iteration: there is no
report. -/
theorem Report.unreported_for_pauses :
    let tally : Tally := ⟨⟨0, 0, 0, 0, 0, 2 ^ 63, 0, 0⟩, by decide, by decide⟩
    let ws : List WorkerReport := [⟨0, tally, false, none⟩, ⟨1, tally, false, none⟩]
    (∀ w ∈ ws, ∃ way : Tallying, way.tally = .ok w.tally) ∧
      sumOf Totals.iterations ws = 0 ∧ sumOf Totals.latency ws = 0 ∧
      ofAccounts ⟨ws, Duration.zero, 0, 0, "sentinel", none⟩ = .error .counter := by
  intro tally ws
  obtain ⟨t, ht, htotals⟩ := Tallying.exists_tally_doubled (k := 63) (by decide)
  obtain rfl : t = tally := Tally.ext htotals
  have hbuilt : ∃ way : Tallying, way.tally = .ok tally := ⟨_, ht⟩
  refine ⟨?_, rfl, rfl, by decide +kernel⟩
  simp only [ws, List.forall_mem_cons]
  exact ⟨hbuilt, hbuilt, nofun⟩

end StoreSoak
