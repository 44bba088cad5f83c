import StoreSoak.Proofs.Pool.Progress
import StoreSoak.Proofs.Store.Shared

/-!
Pools at the store inside the process that nobody stops.

* `Calm`: the invariant of such a pool. The store holds what it held at first, but for the shared
  key once a worker has written it, and every worker is calm.
* `Calm.stepped`: every event keeps it, as long as nobody is told to stop, no failure stops the
  others, and the counters and latencies are in range.
* `Calm.over`: once such a pool is over, its workers have left as foretold.
-/

namespace StoreSoak

namespace Pool

variable {plan : Plan} {policy : FailurePolicy} {entropy : ℕ → Generator} {index : ℤ}
  {initial : Keyspace} {l : ℕ} {p p' : Pool Memory} {e : Event}

/-- Whether a worker has counted an iteration. -/
def Touched (p : Pool Memory) : Prop :=
  ∃ (i : ℕ) (w : Worker), p.workers[i]? = some w ∧ 0 < w.tally.totals.iterations

/-- A pool under a plan at the store inside the process, where the database of the given index held
the given keys at first, and latencies have come about up to the given sum. -/
structure Calm (plan : Plan) (policy : FailurePolicy) (entropy : ℕ → Generator) (index : ℤ)
    (initial : Keyspace) (l : ℕ) (p : Pool Memory) : Prop where
  launched : Launched plan entropy p
  policy_eq : p.policy = policy
  lifecycle : p.signals.lifecycle = true
  /-- Nobody is told to stop as long as there is somebody. -/
  shutdown : p.signals.shutdown = true → p.isOver = true
  unclosed : p.store.closed = false
  written : Written plan initial (p.store.keyspace index) p.Touched
  worker : ∀ {i : ℕ} {w : Worker}, p.workers[i]? = some w → w.Calm (plan.refuses initial)
  latency : p.total (fun w => w.tally.totals.latency) ≤ l

lemma Calm.launch (plan : Plan) (policy : FailurePolicy) (count : ℕ) (entropy : ℕ → Generator)
    (index : ℤ) {store : Memory} (hopen : store.closed = false) :
    Calm plan policy entropy index (store.keyspace index) 0
      (launch plan policy count entropy store) := by
  have hworker {i : ℕ} {w : Worker}
      (hw : (Pool.launch plan policy count entropy store).workers[i]? = some w) :
      w = Worker.launch plan entropy i :=
    (launch_workers plan policy count entropy store hw).2
  refine ⟨.launch plan policy count entropy store, rfl, rfl, ?_, hopen, ?_, ?_, ?_⟩
  · intro hshutdown
    cases hshutdown
  · refine (Written.refl plan _).congr ⟨?_, False.elim⟩
    rintro ⟨i, w, hw, hpos⟩
    rw [hworker hw] at hpos
    exact absurd hpos (Nat.lt_irrefl 0)
  · intro i w hw
    rw [hworker hw]
    exact .launch plan _ entropy i
  · rw [total, Nat.le_zero, List.sum_eq_zero_iff]
    intro n hn
    obtain ⟨w, hw, rfl⟩ := List.mem_map.mp hn
    obtain ⟨i, hi⟩ := List.getElem?_of_mem hw
    rw [Array.getElem?_toList] at hi
    rw [hworker hi]
    rfl

lemma Calm.mono (h : Calm plan policy entropy index initial l p) {l' : ℕ} (hle : l ≤ l') :
    Calm plan policy entropy index initial l' p :=
  { h with latency := h.latency.trans hle }

/-- What leaves the workers and the store alone, and tells nobody to stop. -/
lemma Calm.of_eq (h : Calm plan policy entropy index initial l p) (hplan : p'.plan = p.plan)
    (hpolicy : p'.policy = p.policy) (hworkers : p'.workers = p.workers)
    (hstore : p'.store = p.store) (hlifecycle : p'.signals.lifecycle = true)
    (hshutdown : p'.signals.shutdown = true → p.isOver = true) :
    Calm plan policy entropy index initial l p' := by
  refine ⟨⟨hplan.trans h.launched.plan_eq, ?_, ?_⟩, hpolicy.trans h.policy_eq, hlifecycle, ?_, ?_,
    ?_, ?_, ?_⟩
  · rw [hworkers]
    exact h.launched.index
  · rw [hworkers]
    exact h.launched.sound
  · rw [isOver, hworkers]
    exact hshutdown
  · rw [hstore]
    exact h.unclosed
  · rw [hstore]
    refine h.written.congr ?_
    rw [Touched, Touched, hworkers]
  · rw [hworkers]
    exact h.worker
  · rw [total, hworkers]
    exact h.latency

/-- A calm pool that is over stays calm, whatever happens but a loss of the lifecycle. -/
lemma Calm.stepped_of_isOver (h : Calm plan policy entropy index initial l p)
    (hover : p.isOver = true) (he : e ≠ .dropLifecycle)
    (hs : Stepped (Memory.databaseOf index) p e p') :
    Calm plan policy entropy index initial l p' :=
  h.of_eq hs.plan hs.policy (hs.of_isOver hover).1 (hs.of_isOver hover).2
    ((Raised.stepped hs he).lifecycle h.lifecycle) fun _ => hover

/-- A worker is replaced by one with the same tally. -/
lemma Calm.replace (h : Calm plan policy entropy index initial l p)
    (hs : Stepped (Memory.databaseOf index) p e p') {i : ℕ} {w v : Worker}
    (hw : p.workers[i]? = some w) (hv : v.Calm (plan.refuses initial)) (htally : v.tally = w.tally)
    (hworkers : p'.workers = p.workers.setIfInBounds i v) (hsignals : p'.signals = p.signals)
    (hshutdown : p.signals.shutdown = false) (hstore : p'.store = p.store) :
    Calm plan policy entropy index initial l p' := by
  have hsum := sum_replace hw v fun w => w.tally.totals.latency
  have hlatency := h.latency
  rw [total] at hlatency
  rw [htally] at hsum
  refine ⟨h.launched.stepped hs, hs.policy.trans h.policy_eq, by rw [hsignals]; exact h.lifecycle,
    ?_, by rw [hstore]; exact h.unclosed, ?_, ?_, ?_⟩
  · rw [hsignals, hshutdown]
    exact fun h => absurd h Bool.false_ne_true
  · rw [hstore]
    -- the same workers as before have counted something
    refine h.written.congr ⟨?_, ?_⟩
    · rintro ⟨j, u, hu, hpos⟩
      rw [hworkers, getElem?_replace hw] at hu
      split at hu
      · cases hu
        rw [htally] at hpos
        exact ⟨i, w, hw, hpos⟩
      · exact ⟨j, u, hu, hpos⟩
    · rintro ⟨j, u, hu, hpos⟩
      by_cases hij : i = j
      · subst hij
        rw [hw] at hu
        cases hu
        refine ⟨i, v, ?_, by rw [htally]; exact hpos⟩
        rw [hworkers, getElem?_replace hw, if_pos rfl]
      · refine ⟨j, u, ?_, hpos⟩
        rw [hworkers, getElem?_replace hw, if_neg hij]
        exact hu
  · rw [hworkers]
    exact forall_replace hw hv h.worker
  · rw [total, hworkers]
    omega

/-- The last iteration of a plan is a number that a counter holds, as long as there is a worker. -/
lemma last_lt {i : ℕ} {w : Worker} (hw : p.workers[i]? = some w)
    (hcount : p.workers.size * plan.last < Totals.counterLimit) :
    plan.last < Totals.counterLimit := by
  have hi : i < p.workers.size := (Array.getElem?_eq_some_iff.mp hw).1
  calc
    plan.last = 1 * plan.last := (Nat.one_mul _).symm
    _ ≤ p.workers.size * plan.last := Nat.mul_le_mul_right _ (by omega)
    _ < Totals.counterLimit := hcount

/-- A call comes back, as foretold. -/
lemma Calm.receive (h : Calm plan policy entropy index initial l p) {i k since : ℕ} {f : Flags}
    {w : Worker} (hw : p.workers[i]? = some w) (hstage : w.stage = .calling k f since)
    {r : Reply (Option Bool) × Memory}
    (hr : (p.plan.request k f).perform (Memory.databaseOf index) ⟨w.index, k⟩ p.store = r)
    (hshutdown : p.signals.shutdown = false)
    (hcount : p.workers.size * plan.last < Totals.counterLimit)
    (hl : l + w.waiting p.now < Duration.limit) :
    Calm plan policy entropy index initial (l + w.waiting p.now)
      ({ p with store := r.2 }.put i (w.receive p.plan p.now r.1)) := by
  obtain rfl : p.plan = plan := h.launched.plan_eq
  have hlaunched := h.launched.stepped (.receive hw hstage hr)
  have hsound := h.launched.sound hw
  obtain ⟨calls, -, hk, hlast, hsettled⟩ := hsound.of_calling hstage
  -- the store answers as foretold: before a transaction the worker has written the shared key
  obtain ⟨m, hperform, hopen, hwritten⟩ := Memory.perform_request h.written h.unclosed k f
    (fun heven => ⟨i, w, hw, by rw [hsettled.iterations]; omega⟩) ⟨w.index, k⟩
  rw [hperform] at hr
  subst hr
  -- there is room in the tally of the worker
  have hwaiting : w.waiting p.now = p.now - since := by rw [Worker.waiting, hstage]
  have hlatency : w.tally.totals.latency + (p.now - since) < Duration.limit := by
    have hle := le_total (fun w => w.tally.totals.latency) hw
    have htotal := h.latency
    omega
  have hfits := hsound.totalsAfter_fits hstage
    ((p.plan.request k f).foretold (p.plan.refuses initial)) (h.worker hw).consistent
    (last_lt hw hcount) hlatency
  have hcalm := (h.worker hw).receive hsound hstage p.now hfits
  obtain ⟨t, htotals, hreceive⟩ := Worker.receive_answered hstage p.now _ hfits
  obtain ⟨hlat, hiterations, -⟩ := Worker.totalsAfter_bounds p.plan w k (p.now - since) f
    ((p.plan.request k f).foretold (p.plan.refuses initial))
  rw [← htotals] at hlat hiterations
  dsimp only at hlaunched ⊢
  generalize w.receive p.plan p.now
    (.answered ((p.plan.request k f).foretold (p.plan.refuses initial))) = v
    at hcalm hreceive hlaunched ⊢
  have htally : v.1.tally = t := by rw [hreceive]
  refine ⟨hlaunched, h.policy_eq, h.lifecycle, ?_, hopen, ?_, ?_, ?_⟩
  · show p.signals.shutdown = true → _
    rw [hshutdown]
    exact fun h => absurd h Bool.false_ne_true
  · refine hwritten.congr ⟨fun _ => trivial, fun _ => ⟨i, v.1, ?_, ?_⟩⟩
    · rw [put_workers, getElem?_replace hw, if_pos rfl]
    · rw [htally, hiterations]
      exact Nat.succ_pos _
  · rw [put_workers]
    exact forall_replace hw hcalm h.worker
  · have hsum := sum_replace hw v.1 fun w => w.tally.totals.latency
    have htotal := h.latency
    rw [total] at htotal
    rw [htally] at hsum
    rw [total, put_workers]
    show ((p.workers.setIfInBounds i v.1).toList.map _).sum ≤ _
    omega

/-- A calm worker that leaves stops nobody. -/
lemma Calm.retire_signals (h : Calm plan policy entropy index initial l p)
    (hlenient : plan.strictGuard = false ∨ policy = .continue) {i : ℕ} {w : Worker} {e : Exit}
    (hw : p.workers[i]? = some w) (hstage : w.stage = .leaving e) :
    (p.retire i w e).signals = p.signals := by
  rw [retire_eq, put_signals, if_neg]
  rw [Bool.and_eq_true, decide_eq_true_eq, h.policy_eq]
  rintro ⟨hfailure, habort⟩
  have hexit := ((h.worker hw).exit (h.launched.sound hw) ((h.launched.sound hw).of_leaving hstage)
    ((h.worker hw).unstopped e (.inl hstage))).1
  rw [hexit, Plan.exitOf] at hfailure
  split at hfailure
  · rename_i hheld
    rcases hlenient with hstrict | hcontinue
    · rw [hheld.1] at hstrict
      cases hstrict
    · rw [hcontinue] at habort
      cases habort
  · cases hfailure

/-- **Every event keeps a pool calm** that does not tell anybody to stop, where the counters and the
latencies have room. -/
theorem Calm.stepped (h : Calm plan policy entropy index initial l p)
    (hlenient : plan.strictGuard = false ∨ policy = .continue)
    (hcount : p.workers.size * plan.last < Totals.counterLimit)
    (hl : l + p.latencyOf e < Duration.limit) (hcancel : e ≠ .cancel) (hdrop : e ≠ .dropLifecycle)
    (hs : Stepped (Memory.databaseOf index) p e p') :
    Calm plan policy entropy index initial (l + p.latencyOf e) p' := by
  -- a calm pool shuts down only when its workers are gone, and then nothing changes any more
  by_cases hshutdown : p.signals.shutdown = true
  · exact (h.stepped_of_isOver (h.shutdown hshutdown) hdrop hs).mono (Nat.le_add_right _ _)
  rw [Bool.not_eq_true] at hshutdown
  have hnever : p.signals.shutdown = true → p.isOver = true := by
    rw [hshutdown]
    exact fun h => absurd h Bool.false_ne_true
  have hmono {q : Pool Memory} (hq : Calm plan policy entropy index initial l q) :
      Calm plan policy entropy index initial (l + p.latencyOf e) q := hq.mono (Nat.le_add_right _ _)
  have hs' := hs
  cases hs with
  | tick d => exact hmono (h.of_eq rfl rfl rfl rfl h.lifecycle hnever)
  | start =>
      have hsignals : p.signals.start = { p.signals with fired := true } := if_pos h.lifecycle
      refine hmono (h.of_eq rfl rfl rfl rfl ?_ ?_)
      · show p.signals.start.lifecycle = true
        rw [hsignals]
        exact h.lifecycle
      · show p.signals.start.shutdown = true → _
        rw [hsignals]
        exact hnever
  | cancel => exact absurd rfl hcancel
  | dropLifecycle => exact absurd rfl hdrop
  | idle => exact hmono h
  | @release i w go hw hstage hgo =>
      obtain rfl := Signals.go_of_started (.inr h.lifecycle) hshutdown hgo
      exact hmono (h.replace hs' hw (h.worker hw).release (w.release_tally true) rfl rfl hshutdown
        rfl)
  | @check i k w hw hstage =>
      rw [hshutdown]
      rw [hshutdown] at hs'
      exact hmono (h.replace hs' hw ((h.worker hw).check p.plan)
        (Worker.check_tally p.plan w false) rfl rfl hshutdown rfl)
  | @issue i k w hw hstage =>
      exact hmono (h.replace hs' hw ((h.worker hw).issue p.plan p.now)
        (Worker.issue_tally p.plan w p.now) rfl rfl hshutdown rfl)
  | @receive i k since f w hw hstage r hr =>
      have hlatency : p.latencyOf (.turn i) = w.waiting p.now := by rw [latencyOf, hw]
      rw [hlatency] at hl ⊢
      exact h.receive hw hstage hr hshutdown hcount hl
  | @resume i k wake w hw hstage hwake =>
      exact hmono (h.replace hs' hw (h.worker hw).resume w.resume_tally rfl rfl hshutdown rfl)
  | @retire i w e hw hstage =>
      exact hmono (h.replace hs' hw (h.worker hw).finish w.finish_tally (retire_workers ..)
        (h.retire_signals hlenient hw hstage) hshutdown (retire_store ..))
  | interrupt hw hraised =>
      rw [hshutdown] at hraised
      cases hraised

/-- **A calm pool that is over** has been left by every worker as foretold. -/
theorem Calm.over (h : Calm plan policy entropy index initial l p) (hover : p.isOver = true) {i : ℕ}
    {w : Worker} (hw : p.workers[i]? = some w) :
    w.stage = .gone (plan.exitOf (plan.refuses initial) i) ∧
      w.tally.totals =
        { plan.foretold (plan.refuses initial) (plan.generator entropy i) with
          latency := w.tally.totals.latency, longest := w.tally.totals.longest } := by
  obtain ⟨e, hstage⟩ := stage_of_isOver hover hw
  have hsound := h.launched.sound hw
  obtain ⟨hexit, htotals⟩ := (h.worker hw).exit hsound (hsound.of_gone hstage)
    ((h.worker hw).unstopped e (.inr hstage))
  rw [h.launched.index hw] at hexit
  exact ⟨by rw [hstage, hexit], htotals⟩

end Pool

end StoreSoak
