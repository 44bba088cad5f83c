import Mathlib.Tactic
import StoreSoak.Report

/-!
Totals as a monoid, and the tallies of a run that are merged.

* Totals with their addition are a commutative monoid, so that rows of totals have sums.
* `Fits`: a tally has room for the totals. What fits still fits when something is taken away.
* `map_sum` takes a sum of totals field by field.
* `mergeAll_of_fits`: where there is room for the sum of all totals, merging does not fail on the
  way, and the merged tally holds the sum. `totals_of_mergeAll`: a merged tally holds the sum, so
  that there was room for it.
-/

namespace StoreSoak

namespace Totals

instance : Zero Totals := ⟨zero⟩

@[ext] lemma ext {a b : Totals} (iterations : a.iterations = b.iterations)
    (transactional : a.transactional = b.transactional) (direct : a.direct = b.direct)
    (highPriority : a.highPriority = b.highPriority) (aborted : a.aborted = b.aborted)
    (pauses : a.pauses = b.pauses) (latency : a.latency = b.latency)
    (longest : a.longest = b.longest) : a = b := by
  cases a
  cases b
  simp_all

instance : AddCommMonoid Totals where
  add_assoc a b c := by
    ext
    · exact Nat.add_assoc _ _ _
    · exact Nat.add_assoc _ _ _
    · exact Nat.add_assoc _ _ _
    · exact Nat.add_assoc _ _ _
    · exact Nat.add_assoc _ _ _
    · exact Nat.add_assoc _ _ _
    · exact Nat.add_assoc _ _ _
    · exact Nat.max_assoc _ _ _
  zero_add a := by
    ext
    · exact Nat.zero_add _
    · exact Nat.zero_add _
    · exact Nat.zero_add _
    · exact Nat.zero_add _
    · exact Nat.zero_add _
    · exact Nat.zero_add _
    · exact Nat.zero_add _
    · exact Nat.zero_max _
  add_zero a := by
    ext
    · exact Nat.add_zero _
    · exact Nat.add_zero _
    · exact Nat.add_zero _
    · exact Nat.add_zero _
    · exact Nat.add_zero _
    · exact Nat.add_zero _
    · exact Nat.add_zero _
    · exact Nat.max_zero _
  add_comm a b := by
    ext
    · exact Nat.add_comm _ _
    · exact Nat.add_comm _ _
    · exact Nat.add_comm _ _
    · exact Nat.add_comm _ _
    · exact Nat.add_comm _ _
    · exact Nat.add_comm _ _
    · exact Nat.add_comm _ _
    · exact Nat.max_comm _ _
  nsmul := nsmulRec

/-- A sum field by field, for every field that is added up. -/
lemma map_sum {f : Totals → ℕ} (hzero : f 0 = 0) (hadd : ∀ a b, f (a + b) = f a + f b)
    (ts : List Totals) : f ts.sum = (ts.map f).sum := by
  induction ts with
  | nil => exact hzero
  | cons t ts ih => rw [List.sum_cons, hadd, ih, List.map_cons, List.sum_cons]

/-- No latency is longer than all of them together. -/
def Consistent (t : Totals) : Prop :=
  t.longest ≤ t.latency

lemma Consistent.add {a b : Totals} (ha : a.Consistent) (hb : b.Consistent) :
    (a + b).Consistent := by
  show max a.longest b.longest ≤ a.latency + b.latency
  rw [Consistent] at ha hb
  omega

lemma Consistent.sum {ts : List Totals} (h : ∀ t ∈ ts, t.Consistent) : ts.sum.Consistent := by
  induction ts with
  | nil => exact Nat.le_refl 0
  | cons t ts ih =>
      rw [List.sum_cons]
      exact (h t List.mem_cons_self).add (ih fun u hu => h u (List.mem_cons_of_mem t hu))

/-- A tally has room for the totals. -/
def Fits (t : Totals) : Prop :=
  t.CountersFit ∧ t.LatencyFits

/-- What fits together fits alone. -/
lemma Fits.of_add {a b : Totals} (h : (a + b).Fits) : a.Fits := by
  obtain ⟨⟨h1, h2, h3, h4, h5, h6⟩, h7, h8⟩ := h
  have hmax : a.longest ≤ (a + b).longest := Nat.le_max_left _ _
  have hlt {m n k : ℕ} (h : m + n < k) : m < k := Nat.lt_of_le_of_lt (Nat.le_add_right m n) h
  exact ⟨⟨hlt h1, hlt h2, hlt h3, hlt h4, hlt h5, hlt h6⟩, hlt h7, Nat.lt_of_le_of_lt hmax h8⟩

end Totals

namespace Tally

/-- A tally of totals that fit. -/
lemma ofTotals?_of_fits {t : Totals} (h : t.Fits) : ∃ u, ofTotals? t = .ok u ∧ u.totals = t :=
  ⟨⟨t, h.1, h.2⟩, ofTotals?_eq_ok_iff.mpr rfl, rfl⟩

end Tally

/-! ### Merging -/

namespace Report

/-- The tallies merge where there is room for the sum of their totals. -/
lemma mergeAll_of_fits {t : Tally} {us : List Tally}
    (h : (t.totals + (us.map Tally.totals).sum).Fits) :
    ∃ u, mergeAll t us = .ok u ∧ u.totals = t.totals + (us.map Tally.totals).sum := by
  induction us generalizing t with
  | nil => exact ⟨t, rfl, (add_zero t.totals).symm⟩
  | cons v us ih =>
      rw [List.map_cons, List.sum_cons, ← add_assoc] at h ⊢
      obtain ⟨m, hm, htotals⟩ := Tally.ofTotals?_of_fits h.of_add
      rw [← htotals] at h ⊢
      obtain ⟨u, hu, hsum⟩ := ih h
      refine ⟨u, ?_, hsum⟩
      rw [mergeAll, Tally.merge, hm]
      exact hu

/-- A merged tally holds the sum of the totals. -/
lemma totals_of_mergeAll {t u : Tally} {us : List Tally} (h : mergeAll t us = .ok u) :
    u.totals = t.totals + (us.map Tally.totals).sum := by
  induction us generalizing t with
  | nil =>
      rw [← Except.ok.inj h]
      exact (add_zero t.totals).symm
  | cons v us ih =>
      rw [mergeAll] at h
      cases hm : t.merge v with
      | error o =>
          rw [hm] at h
          cases h
      | ok m =>
          rw [hm] at h
          rw [ih h, List.map_cons, List.sum_cons, ← add_assoc, Tally.ofTotals?_eq_ok_iff.mp hm]

end Report

end StoreSoak
