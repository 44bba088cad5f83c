import StoreSoak.Proofs.Pool.Accounts
import StoreSoak.Proofs.Pool.Causes
import StoreSoak.Proofs.Worker.Unopposed

/-!
Pools at a store whose guard is never there.

The workers of a plan never write their guard, unless it is the key that they share. So where it is
absent at first it stays absent, whoever stops the workers and in whatever order they go on: every
transaction commits and no worker fails.

* `Memory.Kept`: a store holds what it held at first, but for the shared key of one database.
* `Unopposed`: the invariant of such a pool; `Unopposed.stepped` says that every event keeps it.
* `Unopposed.reports`: what such a pool reports once it is over.
-/

namespace StoreSoak

namespace Memory

/-- A store under the workers of a plan at the database of the given index: as at first, but for the
shared key of that database, which may hold the payload. -/
structure Kept (p : Plan) (index : ℤ) (m initial : Memory) : Prop where
  other : ∀ i key, i ≠ index ∨ key ≠ p.sharedKey →
    (m.keyspace i).get? key = (initial.keyspace i).get? key
  shared : (m.keyspace index).get? p.sharedKey = (initial.keyspace index).get? p.sharedKey ∨
    (m.keyspace index).get? p.sharedKey = some p.payload

variable {p : Plan} {index : ℤ} {m initial : Memory}

lemma Kept.refl (p : Plan) (index : ℤ) (m : Memory) : m.Kept p index m :=
  ⟨fun _ _ _ => rfl, .inl rfl⟩

/-- Writing the shared key. -/
lemma Kept.insert (h : m.Kept p index initial) :
    (m.withKeyspace index ((m.keyspace index).insert p.sharedKey p.payload)).Kept p index
      initial := by
  refine ⟨fun i key hother => ?_, .inr ?_⟩
  · rw [← h.other i key hother, keyspace_withKeyspace]
    split
    · rename_i hi
      rw [hi, Table.get?_insert, if_neg (hother.resolve_left (not_not_intro hi))]
    · rfl
  · rw [keyspace_withKeyspace, if_pos rfl, Table.get?_insert, if_pos rfl]

/-- A guard that was absent at first is absent. -/
lemma Kept.guard_absent (h : m.Kept p index initial)
    (habsent : p.refuses (initial.keyspace index) = false) :
    (m.keyspace index).contains p.guardKey = false := by
  rw [Plan.refuses, Bool.or_eq_false_iff, decide_eq_false_iff_not] at habsent
  rw [Table.contains, h.other index p.guardKey (.inr habsent.2)]
  exact habsent.1

end Memory

namespace Pool

variable {plan : Plan} {entropy : ℕ → Generator} {index : ℤ} {initial : Memory}
  {p p' : Pool Memory} {e : Event}

/-- A pool under a plan at the store inside the process, at first with the given content. -/
structure Unopposed (plan : Plan) (entropy : ℕ → Generator) (index : ℤ) (initial : Memory)
    (p : Pool Memory) : Prop where
  launched : Launched plan entropy p
  timely : ∀ {i : ℕ} {w : Worker}, p.workers[i]? = some w → w.Timely p.now
  worker : ∀ {i : ℕ} {w : Worker}, p.workers[i]? = some w → w.Unopposed
  kept : p.store.Kept plan index initial

lemma Unopposed.launch (plan : Plan) (policy : FailurePolicy) (count : ℕ)
    (entropy : ℕ → Generator) (index : ℤ) (store : Memory) :
    Unopposed plan entropy index store (launch plan policy count entropy store) := by
  have hworker {i : ℕ} {w : Worker}
      (hw : (Pool.launch plan policy count entropy store).workers[i]? = some w) :
      w = Worker.launch plan entropy i :=
    (launch_workers plan policy count entropy store hw).2
  refine ⟨.launch plan policy count entropy store, ?_, ?_, .refl plan index store⟩
  · intro i w hw
    rw [hworker hw]
    exact .launch plan entropy i
  · intro i w hw
    rw [hworker hw]
    exact .launch plan entropy i

/-- What leaves the workers alone and keeps the store. -/
lemma Unopposed.of_eq (h : Unopposed plan entropy index initial p) (hplan : p'.plan = p.plan)
    (hworkers : p'.workers = p.workers) (hnow : ∃ d, p'.now = p.now + d)
    (hkept : p'.store.Kept plan index initial) : Unopposed plan entropy index initial p' := by
  obtain ⟨d, hd⟩ := hnow
  refine ⟨⟨hplan.trans h.launched.plan_eq, ?_, ?_⟩, ?_, ?_, hkept⟩
  · rw [hworkers]
    exact h.launched.index
  · rw [hworkers]
    exact h.launched.sound
  · intro i w hw
    rw [hworkers] at hw
    rw [hd]
    exact (h.timely hw).tick d
  · rw [hworkers]
    exact h.worker

/-- A pool that is over stays unopposed. -/
lemma Unopposed.stepped_of_isOver {db : Database Memory}
    (h : Unopposed plan entropy index initial p) (hover : p.isOver = true)
    (hs : Stepped db p e p') : Unopposed plan entropy index initial p' :=
  h.of_eq hs.plan (hs.of_isOver hover).1 hs.now (by rw [(hs.of_isOver hover).2]; exact h.kept)

/-- **Every event keeps a pool unopposed** whose guard was absent at first and whose store is
open. -/
theorem Unopposed.stepped (h : Unopposed plan entropy index initial p)
    (habsent : plan.refuses (initial.keyspace index) = false) (hopen : p.store.closed = false)
    (hlast : plan.last < Totals.counterLimit) (hnow : p.now < Duration.limit)
    (hs : Stepped (Memory.databaseOf index) p e p') :
    Unopposed plan entropy index initial p' ∧ p'.store.closed = false := by
  have hlaunched := h.launched.stepped hs
  have htimely {i : ℕ} {w' : Worker} (hw' : p'.workers[i]? = some w') : w'.Timely p'.now :=
    hs.timely h.launched h.timely hw'
  have hreplace {i : ℕ} {w v : Worker} (hw : p.workers[i]? = some w) (hv : v.Unopposed)
      (hworkers : p'.workers = p.workers.setIfInBounds i v) :
      ∀ {j : ℕ} {u : Worker}, p'.workers[j]? = some u → u.Unopposed := by
    rw [hworkers]
    exact forall_replace hw hv h.worker
  -- at its turn a worker that waits for no answer leaves the store alone
  have hturn {i : ℕ} {w v : Worker} (hw : p.workers[i]? = some w)
      (ht : w.Turned p.plan p.signals p.now v) (hwaits : ∀ k f since, w.stage ≠ .calling k f since)
      (hworkers : p'.workers = p.workers.setIfInBounds i v) (hstore : p'.store = p.store) :
      Unopposed plan entropy index initial p' ∧ p'.store.closed = false := by
    rw [hstore]
    exact ⟨⟨hlaunched, htimely, hreplace hw (ht.unopposed (h.worker hw) hwaits) hworkers,
      by rw [hstore]; exact h.kept⟩, hopen⟩
  have hwaits {w : Worker} {stage : Stage} (hs : w.stage = stage)
      (hne : ∀ k f since, stage ≠ .calling k f since) :
      ∀ k f since, w.stage ≠ .calling k f since := by
    rw [hs]
    exact hne
  cases hs with
  | tick d => exact ⟨h.of_eq rfl rfl ⟨d, rfl⟩ h.kept, hopen⟩
  | start => exact ⟨h.of_eq rfl rfl ⟨0, rfl⟩ h.kept, hopen⟩
  | cancel =>
      rw [requestShutdown_store]
      exact ⟨h.of_eq (requestShutdown_plan p) (requestShutdown_workers p)
        ⟨0, requestShutdown_now p⟩ (by rw [requestShutdown_store]; exact h.kept), hopen⟩
  | dropLifecycle => exact ⟨h.of_eq rfl rfl ⟨0, rfl⟩ h.kept, hopen⟩
  | idle => exact ⟨h, hopen⟩
  | release hw hstage hgo => exact hturn hw (.release hstage hgo) (hwaits hstage nofun) rfl rfl
  | check hw hstage => exact hturn hw (.check hstage) (hwaits hstage nofun) rfl rfl
  | issue hw hstage => exact hturn hw (.issue hstage) (hwaits hstage nofun) rfl rfl
  | @receive i k since f w hw hstage r hr =>
      obtain rfl : p.plan = plan := h.launched.plan_eq
      rw [Memory.perform_of_absent hopen (h.kept.guard_absent habsent)] at hr
      subst hr
      have hv := (h.worker hw).receive (h.launched.sound hw) (h.timely hw) hlast hnow hstage
      exact ⟨⟨hlaunched, htimely, hreplace hw hv rfl, h.kept.insert⟩, hopen⟩
  | resume hw hstage hwake => exact hturn hw (.resume hstage) (hwaits hstage nofun) rfl rfl
  | retire hw hstage =>
      exact hturn hw (.finish hstage) (hwaits hstage nofun) (retire_workers ..) (retire_store ..)
  | @interrupt i w hw hshutdown =>
      cases hstage : w.stage with
      | pausing k wake =>
          exact hturn hw (.interrupt hstage hshutdown) (hwaits hstage nofun) rfl rfl
      | _ =>
          -- a worker that does not pause hears nothing
          have hsame : w.interrupt.1 = w := by rw [Worker.interrupt, hstage]
          exact ⟨⟨hlaunched, htimely, hreplace hw (by rw [hsame]; exact h.worker hw) rfl, h.kept⟩,
            hopen⟩

/-! ### What is reported -/

/-- What holds for every worker of a pool holds for those in its row. -/
lemma forall_mem_workers {σ : Type} {p : Pool σ} {P : Worker → Prop}
    (h : ∀ {i : ℕ} {w : Worker}, p.workers[i]? = some w → P w) : ∀ w ∈ p.workers.toList, P w := by
  intro w hmem
  obtain ⟨i, hi⟩ := Array.getElem?_of_mem (Array.mem_toList_iff.mp hmem)
  exact h hi

/-- The reports of an unopposed pool that is over: no worker has failed. -/
lemma Unopposed.reports (h : Unopposed plan entropy index initial p) (hover : p.isOver = true) :
    p.reports? = some (p.workers.toList.map fun w =>
      { index := w.index
        tally := w.tally
        cancelled := w.stage = .gone .cancelled
        failure := none }) := by
  refine mapM_eq_some (forall_mem_workers fun {i w} hi => ?_)
  obtain ⟨e, hstage⟩ := stage_of_isOver hover hi
  rw [Worker.report?, hstage]
  rcases (h.worker hi).exit e (.inr hstage) with rfl | rfl <;> rfl

/-- No worker of an unopposed pool has failed. -/
lemma Unopposed.failures (h : Unopposed plan entropy index initial p) (hover : p.isOver = true) :
    Report.failuresOf (p.reports?.getD []) = [] := by
  rw [h.reports hover, Option.getD_some, Report.failuresOf, List.filterMap_map,
    List.filterMap_eq_nil_iff]
  exact fun w _ => rfl

/-- Of the workers of an unopposed pool each has completed or was stopped. -/
lemma Unopposed.balanced (h : Unopposed plan entropy index initial p) (hover : p.isOver = true) :
    ((p.reports?.getD []).filter fun w => w.succeeded).length +
      ((p.reports?.getD []).filter fun w => w.failure.isNone && w.cancelled).length =
        p.workers.size := by
  have hsize : (p.reports?.getD []).length = p.workers.size := by
    rw [h.reports hover, Option.getD_some, List.length_map, Array.length_toList]
  rw [← hsize]
  refine ((List.length_eq_length_filter_add fun w : WorkerReport => w.succeeded).trans ?_).symm
  congr 2
  -- a worker that has not failed has completed unless it was stopped
  refine List.filter_congr fun w hw => ?_
  rw [h.reports hover, Option.getD_some] at hw
  obtain ⟨v, -, rfl⟩ := List.mem_map.mp hw
  simp [WorkerReport.succeeded]

/-- What no worker counts is not counted for all of them together. -/
lemma Unopposed.aborted (h : Unopposed plan entropy index initial p) : p.totals.aborted = 0 := by
  rw [totals, Totals.map_sum (f := Totals.aborted) rfl fun _ _ => rfl, List.map_map,
    List.sum_eq_zero_iff]
  intro n hn
  obtain ⟨w, hw, rfl⟩ := List.mem_map.mp hn
  exact forall_mem_workers (fun hi => (h.worker hi).aborted (h.launched.sound hi)) w hw

/-- There is room for the counts of all workers together where there is room for all their
iterations, and for the time that has gone by as often as there are workers. -/
lemma Unopposed.fits (h : Unopposed plan entropy index initial p)
    (hcount : p.workers.size * plan.last < Totals.counterLimit)
    (htime : p.workers.size * p.now < Duration.limit) : p.totals.Fits := by
  have hsum {f : Totals → ℕ} (hzero : f 0 = 0) (hadd : ∀ a b, f (a + b) = f a + f b) {n : ℕ}
      (hle : ∀ {i : ℕ} {w : Worker}, p.workers[i]? = some w → f w.tally.totals ≤ n) :
      f p.totals ≤ p.workers.size * n := by
    rw [totals, Totals.map_sum hzero hadd, List.map_map, ← Array.length_toList, ← smul_eq_mul]
    refine (List.sum_le_card_nsmul _ n ?_).trans (by rw [List.length_map])
    intro m hm
    obtain ⟨w, hw, rfl⟩ := List.mem_map.mp hm
    exact forall_mem_workers hle w hw
  have hcounter {f : Totals → ℕ} (hzero : f 0 = 0) (hadd : ∀ a b, f (a + b) = f a + f b)
      (hle : ∀ {i : ℕ} {w : Worker}, p.workers[i]? = some w → f w.tally.totals ≤ plan.last) :
      f p.totals < Totals.counterLimit :=
    Nat.lt_of_le_of_lt (hsum hzero hadd hle) hcount
  have hcounters {i : ℕ} {w : Worker} (hw : p.workers[i]? = some w) :=
    (h.worker hw).counters_le (h.launched.sound hw)
  have hlatency : p.totals.latency < Duration.limit := by
    refine Nat.lt_of_le_of_lt (hsum rfl (fun _ _ => rfl) fun hw => ?_) htime
    exact Nat.le_of_add_right_le (h.timely hw).latency
  have hconsistent : p.totals.longest ≤ p.totals.latency := by
    refine Totals.Consistent.sum fun t ht => ?_
    obtain ⟨w, hw, rfl⟩ := List.mem_map.mp ht
    exact forall_mem_workers (fun hi => (h.timely hi).consistent) w hw
  refine ⟨⟨hcounter rfl (fun _ _ => rfl) fun hw => (hcounters hw).1,
    hcounter rfl (fun _ _ => rfl) fun hw => (hcounters hw).2.1,
    hcounter rfl (fun _ _ => rfl) fun hw => (hcounters hw).2.2.1,
    hcounter rfl (fun _ _ => rfl) fun hw => (hcounters hw).2.2.2.1, ?_,
    hcounter rfl (fun _ _ => rfl) fun hw => (hcounters hw).2.2.2.2⟩, hlatency,
    Nat.lt_of_le_of_lt hconsistent hlatency⟩
  rw [h.aborted]
  exact Nat.zero_lt_succ _

end Pool

end StoreSoak
