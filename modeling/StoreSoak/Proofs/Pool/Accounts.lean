import StoreSoak.Proofs.Pool.Calm
import StoreSoak.Proofs.Measure.Totals

/-!
What the workers of a calm pool report together.

* `Calm.reports`: once the pool is over there are the reports of all workers, in their order.
* `Plan.together` are the counts of all workers, and `Calm.totals_eq` says that they add up to
  these.
* `Calm.merged`: the tallies merge, and the merged tally holds these counts. `Calm.failures` and
  `Calm.completed` say how the workers have left.
-/

namespace StoreSoak

/-- What is counted for all workers of a plan together that are not stopped, given so many of them
and their generators. -/
def Plan.together (p : Plan) (refused : Bool) (count : ℕ) (g : ℕ → Generator) : Totals :=
  { Totals.zero with
    iterations := count * p.reach refused
    direct := count * ((p.reach refused + 1) / 2)
    transactional := count * (p.reach refused / 2)
    highPriority := ((List.range count).map fun i => p.urgentDraws (g i) (p.reach refused)).sum
    aborted := count * (if refused then p.reach refused / 2 else 0)
    pauses := count * ((if p.HeldUp refused then 1 else p.last) / p.throttleInterval) }

lemma Plan.reach_le (p : Plan) (refused : Bool) : p.reach refused ≤ p.last := by
  rw [reach]
  split
  · rename_i h
    exact h.2.2
  · exact Nat.le_refl _

/-- There are no more urgent draws than draws. -/
lemma Plan.urgentDraws_le (p : Plan) (g : Generator) (k : ℕ) : p.urgentDraws g k ≤ k := by
  calc
    p.urgentDraws g k ≤ (Draw.sequence (Draw.sides p.highPriorityOdds) k g).length :=
      List.countP_le_length
    _ = k := Draw.length_sequence _ k g

/-- A row of answers is there when each of them is. -/
lemma mapM_eq_some {α β : Type} {f : α → Option β} {f' : α → β} {as : List α}
    (h : ∀ a ∈ as, f a = some (f' a)) : as.mapM f = some (as.map f') := by
  induction as with
  | nil => rfl
  | cons a as ih =>
      rw [List.mapM_cons, h a List.mem_cons_self, ih fun b hb => h b (List.mem_cons_of_mem a hb)]
      rfl

namespace Pool

variable {plan : Plan} {policy : FailurePolicy} {entropy : ℕ → Generator} {index : ℤ}
  {initial : Keyspace} {l : ℕ} {p : Pool Memory}

lemma Launched.map_index {σ : Type} {p : Pool σ} (h : Launched plan entropy p) :
    p.workers.toList.map Worker.index = List.range p.workers.size := by
  refine List.ext_getElem (by simp) ?_
  intro i hi hi'
  rw [List.getElem_map, List.getElem_range]
  rw [List.length_map] at hi
  refine h.index (i := i) ?_
  rw [← Array.getElem?_toList]
  exact List.getElem?_eq_getElem hi

/-- The report of a worker that left as foretold. -/
lemma reportOf_exitOf (plan : Plan) (refused : Bool) (w : Worker) :
    w.reportOf (plan.exitOf refused w.index) =
      { index := w.index
        tally := w.tally
        cancelled := false
        failure := if plan.HeldUp refused then some (.guarded w.index 2) else none } := by
  rw [Plan.exitOf]
  split <;> rfl

/-- The reports of a calm pool that is over. -/
lemma Calm.reports (h : Calm plan policy entropy index initial l p) (hover : p.isOver = true) :
    p.reports? = some (p.workers.toList.map fun w =>
      { index := w.index
        tally := w.tally
        cancelled := false
        failure :=
          if plan.HeldUp (plan.refuses initial) then some (.guarded w.index 2) else none }) := by
  refine mapM_eq_some fun w hmem => ?_
  obtain ⟨i, hi⟩ := List.getElem?_of_mem hmem
  rw [Array.getElem?_toList] at hi
  rw [← reportOf_exitOf, Worker.report?, (h.over hover hi).1, h.launched.index hi]

/-- What the workers of a pool have counted together. -/
def totals {σ : Type} (p : Pool σ) : Totals :=
  (p.workers.toList.map fun w => w.tally.totals).sum

lemma Calm.totals_latency (h : Calm plan policy entropy index initial l p) :
    p.totals.latency ≤ l ∧ p.totals.Consistent := by
  refine ⟨?_, Totals.Consistent.sum fun t ht => ?_⟩
  · rw [totals, Totals.map_sum (f := Totals.latency) rfl fun _ _ => rfl, List.map_map]
    exact h.latency
  · obtain ⟨w, hmem, rfl⟩ := List.mem_map.mp ht
    obtain ⟨i, hi⟩ := List.getElem?_of_mem hmem
    rw [Array.getElem?_toList] at hi
    exact (h.worker hi).consistent

/-- The counts of a calm pool that is over add up to those of the plan. -/
lemma Calm.totals_eq (h : Calm plan policy entropy index initial l p) (hover : p.isOver = true) :
    p.totals = { plan.together (plan.refuses initial) p.workers.size (plan.generator entropy) with
      latency := p.totals.latency, longest := p.totals.longest } := by
  have hforetold : ∀ w ∈ p.workers.toList, w.tally.totals =
      { plan.foretold (plan.refuses initial) (plan.generator entropy w.index) with
        latency := w.tally.totals.latency, longest := w.tally.totals.longest } := by
    intro w hmem
    obtain ⟨i, hi⟩ := List.getElem?_of_mem hmem
    rw [Array.getElem?_toList] at hi
    rw [h.launched.index hi]
    exact (h.over hover hi).2
  -- a count that is the same for all workers
  have hsame {f : Totals → ℕ} (hzero : f 0 = 0) (hadd : ∀ a b, f (a + b) = f a + f b) {n : ℕ}
      (hf : ∀ w ∈ p.workers.toList, f w.tally.totals = n) : f p.totals = p.workers.size * n := by
    rw [totals, Totals.map_sum hzero hadd, List.map_map, ← Array.length_toList, ← smul_eq_mul,
      ← List.sum_replicate, ← List.map_const']
    exact congrArg List.sum (List.map_congr_left hf)
  ext
  · exact hsame rfl (fun _ _ => rfl) fun w hw => congrArg Totals.iterations (hforetold w hw)
  · exact hsame rfl (fun _ _ => rfl) fun w hw => congrArg Totals.transactional (hforetold w hw)
  · exact hsame rfl (fun _ _ => rfl) fun w hw => congrArg Totals.direct (hforetold w hw)
  · rw [totals, Totals.map_sum (f := Totals.highPriority) rfl fun _ _ => rfl, List.map_map]
    show _ = ((List.range p.workers.size).map _).sum
    rw [← h.launched.map_index, List.map_map]
    exact congrArg List.sum
      (List.map_congr_left fun w hw => congrArg Totals.highPriority (hforetold w hw))
  · exact hsame rfl (fun _ _ => rfl) fun w hw => congrArg Totals.aborted (hforetold w hw)
  · exact hsame rfl (fun _ _ => rfl) fun w hw => congrArg Totals.pauses (hforetold w hw)
  · rfl
  · rfl

/-- There is room for the counts of all workers together where there is room for their iterations
and their latencies. -/
lemma Calm.totals_fit (h : Calm plan policy entropy index initial l p) (hover : p.isOver = true)
    (hcount : p.workers.size * plan.last < Totals.counterLimit) (hl : l < Duration.limit) :
    p.totals.Fits := by
  obtain ⟨hlatency, hconsistent⟩ := h.totals_latency
  rw [Totals.Consistent] at hconsistent
  -- no counter of a worker exceeds its iterations, so one bound serves for all of them
  have hreach : p.workers.size * plan.reach (plan.refuses initial) < Totals.counterLimit :=
    Nat.lt_of_le_of_lt (Nat.mul_le_mul_left _ (plan.reach_le _)) hcount
  have hle {n : ℕ} (hn : n ≤ plan.reach (plan.refuses initial)) :
      p.workers.size * n < Totals.counterLimit :=
    Nat.lt_of_le_of_lt (Nat.mul_le_mul_left _ hn) hreach
  rw [h.totals_eq hover]
  refine ⟨⟨hreach, hle (Nat.div_le_self _ _), hle ?_, ?_, ?_, ?_⟩, ?_, ?_⟩
  · omega
  · refine Nat.lt_of_le_of_lt ?_ hreach
    calc
      ((List.range p.workers.size).map fun i =>
          plan.urgentDraws (plan.generator entropy i) (plan.reach (plan.refuses initial))).sum
        ≤ ((List.range p.workers.size).map fun _ => plan.reach (plan.refuses initial)).sum :=
          List.sum_le_sum fun i _ => plan.urgentDraws_le _ _
      _ = p.workers.size * plan.reach (plan.refuses initial) := by
          rw [List.map_const', List.sum_replicate, List.length_range, smul_eq_mul]
  · refine hle ?_
    split
    · exact Nat.div_le_self _ _
    · exact Nat.zero_le _
  · refine Nat.lt_of_le_of_lt (Nat.mul_le_mul_left _ ?_) hcount
    refine Nat.le_trans (Nat.div_le_self _ _) ?_
    split
    · rename_i hheld
      have htwo := hheld.2.2
      omega
    · exact Nat.le_refl _
  · exact Nat.lt_of_le_of_lt hlatency hl
  · exact Nat.lt_of_le_of_lt (hconsistent.trans hlatency) hl

section Reports

variable (h : Calm plan policy entropy index initial l p) (hover : p.isOver = true)

include h hover in
/-- The tallies of a calm pool that is over merge. -/
lemma Calm.merged (hcount : p.workers.size * plan.last < Totals.counterLimit)
    (hl : l < Duration.limit) :
    ∃ t, Report.mergeAll Tally.empty ((p.reports?.getD []).map WorkerReport.tally) = .ok t ∧
      t.totals = p.totals := by
  have hfits := h.totals_fit hover hcount hl
  have hsum : Tally.empty.totals + ((p.workers.toList.map Worker.tally).map Tally.totals).sum =
      p.totals := by
    rw [List.map_map]
    exact zero_add _
  rw [← hsum] at hfits ⊢
  rw [h.reports hover, Option.getD_some, List.map_map]
  exact Report.mergeAll_of_fits hfits

include h hover in
/-- All workers of a calm pool fail where they are held up, and none fails where they are not. -/
lemma Calm.failures :
    Report.failuresOf (p.reports?.getD []) =
      if plan.HeldUp (plan.refuses initial) then
        (List.range p.workers.size).map fun i => .guarded i 2
      else [] := by
  rw [h.reports hover, Option.getD_some, Report.failuresOf, List.filterMap_map,
    ← h.launched.map_index, List.map_map]
  split
  · rename_i hheld
    rw [← List.filterMap_eq_map]
    rfl
  · rw [List.filterMap_eq_nil_iff]
    intro w _
    rfl

include h hover in
/-- No worker of a calm pool is stopped, and those that are not held up complete. -/
lemma Calm.completed :
    (p.reports?.getD []).length = p.workers.size ∧
      ((p.reports?.getD []).filter fun w => w.succeeded).length =
        (if plan.HeldUp (plan.refuses initial) then 0 else p.workers.size) ∧
      ((p.reports?.getD []).filter fun w => w.failure.isNone && w.cancelled).length = 0 := by
  have hsize : p.workers.toList.length = p.workers.size := Array.length_toList
  rw [h.reports hover, Option.getD_some]
  refine ⟨by rw [List.length_map, hsize], ?_, ?_⟩
  · split
    · rw [List.length_eq_zero_iff, List.filter_eq_nil_iff]
      intro r hr
      obtain ⟨w, -, rfl⟩ := List.mem_map.mp hr
      exact Bool.false_ne_true
    · rw [List.filter_eq_self.mpr, List.length_map, hsize]
      intro r hr
      obtain ⟨w, -, rfl⟩ := List.mem_map.mp hr
      rfl
  · rw [List.length_eq_zero_iff, List.filter_eq_nil_iff]
    intro r hr
    obtain ⟨w, -, rfl⟩ := List.mem_map.mp hr
    rw [Bool.and_false]
    exact Bool.false_ne_true

end Reports

end Pool

end StoreSoak
