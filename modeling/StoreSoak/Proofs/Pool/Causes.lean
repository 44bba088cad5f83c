import StoreSoak.Proofs.Pool.Progress
import StoreSoak.Proofs.Worker.Outcome

/-!
Why a worker of a pool is stopped, and what becomes of one that is not.

* `Stepped.shutdown_cause`: inside a pool it is a worker with a failure under the abort policy that
  asks for the shutdown.
* `Attended`: the invariant of a pool that is not cancelled from outside. A worker is stopped only
  when the shutdown was asked for, and that was done by a worker that failed.
* `Foreseen`: a worker will end as its draws and the replies to its calls alone have it. Under the
  policy to continue every event keeps this, whichever worker it is about.
* `cancelled_for_cause` says this of the reports of a pool. It is to be started properly, as
  `cancelled_without_start` shows.
-/

namespace StoreSoak

/-- A report tells of an end and of what was counted then, latencies aside. -/
structure WorkerReport.Tells (r : WorkerReport) (i : ℕ) (o : Exit × Totals) : Prop where
  index : r.index = i
  cancelled : r.cancelled = decide (o.1 = .cancelled)
  failure : r.failure = o.1.failure? i
  counts : r.tally.totals.untimed = o.2

namespace Pool

variable {σ : Type} {db : Database σ} {p p' : Pool σ} {e : Event}

/-- The start was signalled, or still can be: the lifecycle was not given up before. -/
def Startable (p : Pool σ) : Prop :=
  p.signals.fired = true ∨ p.signals.lifecycle = true

/-! ### The signals after an event -/

/-- The lifecycle was not given up before the start if it was not later on. -/
lemma Stepped.startable (h : Stepped db p e p') (hp' : p'.Startable) : p.Startable := by
  rw [Startable] at hp' ⊢
  rcases h.signals with hs | hs | ⟨-, hs⟩ | ⟨hs, -⟩
  · rwa [hs] at hp'
  · rw [hs, Signals.start_eq] at hp'
    simpa using hp'
  · rw [hs] at hp'
    exact .inl (by simpa [Signals.dropLifecycle] using hp')
  · rwa [hs, requestShutdown_signals] at hp'

/-- The shutdown handle stays with the workers. -/
lemma Stepped.handle (h : Stepped db p e p') : p'.signals.handle = p.signals.handle := by
  rcases h.signals with hs | hs | ⟨-, hs⟩ | ⟨hs, -⟩
  · rw [hs]
  · rw [hs, Signals.start_eq]
  · rw [hs, Signals.dropLifecycle]
  · rw [hs, requestShutdown_signals]

lemma Stepped.shutdown (h : Stepped db p e p') (hp : p.signals.shutdown = true) :
    p'.signals.shutdown = true := by
  rcases h.signals with hs | hs | ⟨-, hs⟩ | ⟨hs, -⟩
  · rwa [hs]
  · rwa [hs, Signals.start_eq]
  · rwa [hs]
  · rw [hs, requestShutdown_signals, hp]
    rfl

lemma Stepped.shutdown_cause (h : Stepped db p e p') (he : e ≠ .cancel)
    (hp' : p'.signals.shutdown = true) :
    p.signals.shutdown = true ∨ ∃ i w x, p.Aborts i w x ∧ p' = p.retire i w x := by
  rcases h.signals with hs | hs | ⟨-, hs⟩ | ⟨-, hc⟩
  · exact .inl (hs ▸ hp')
  · rw [hs, Signals.start_eq] at hp'
    exact .inl hp'
  · rw [hs] at hp'
    exact .inl hp'
  · exact .inr (hc.resolve_left he)

/-! ### A worker after an event -/

lemma Stepped.now (h : Stepped db p e p') : ∃ d, p'.now = p.now + d := by
  cases h with
  | tick d => exact ⟨d, rfl⟩
  | cancel => exact ⟨0, requestShutdown_now p⟩
  | retire => exact ⟨0, retire_now ..⟩
  | _ => exact ⟨0, rfl⟩

/-- A worker that is gone stays as it is. -/
lemma Stepped.of_gone (h : Stepped db p e p') {j : ℕ} {w : Worker} {x : Exit}
    (hw : p.workers[j]? = some w) (hs : w.stage = .gone x) : p'.workers[j]? = some w := by
  have hj : j < p'.workers.size := by
    rw [h.size]
    exact (Array.getElem?_eq_some_iff.mp hw).1
  obtain ⟨w', hw'⟩ : ∃ w', p'.workers[j]? = some w' := ⟨_, Array.getElem?_eq_getElem hj⟩
  obtain ⟨v, hv, hvw | ht⟩ := h.turned hw'
  · rw [hw', hvw, ← hv, hw]
  · rw [hw] at hv
    cases hv
    exact absurd hs ht.not_gone

/-- A worker is gone only after it has retired. -/
lemma Stepped.retired (h : Stepped db p e p') {j : ℕ} {w w' : Worker} {x x' : Exit}
    (hw : p.workers[j]? = some w) (hs : w.stage = .leaving x) (hw' : p'.workers[j]? = some w')
    (hs' : w'.stage = .gone x') : p' = p.retire j w x := by
  have hkept (hsame : p'.workers[j]? = p.workers[j]?) : p' = p.retire j w x := by
    rw [hw', hw] at hsame
    cases hsame
    rw [hs] at hs'
    cases hs'
  -- another rule moves another worker
  have hreplace {i : ℕ} {u v : Worker} (hu : p.workers[i]? = some u) (hne : u.stage ≠ .leaving x)
      (hworkers : p'.workers = p.workers.setIfInBounds i v) : p' = p.retire j w x := by
    refine hkept ?_
    rw [hworkers, getElem?_replace hu, if_neg]
    rintro rfl
    rw [hw] at hu
    cases hu
    exact hne hs
  cases h with
  | cancel => exact hkept (by rw [requestShutdown_workers])
  | release hu hsu hgo => exact hreplace hu (by simp [hsu]) rfl
  | check hu hsu => exact hreplace hu (by simp [hsu]) rfl
  | issue hu hsu => exact hreplace hu (by simp [hsu]) rfl
  | receive hu hsu hr => exact hreplace hu (by simp [hsu]) rfl
  | resume hu hsu hwake => exact hreplace hu (by simp [hsu]) rfl
  | @retire i u y hu hsu =>
      by_cases hij : i = j
      · subst hij
        rw [hw] at hu
        cases hu
        rw [hs] at hsu
        cases hsu
        rfl
      · refine hkept ?_
        rw [retire_workers, getElem?_replace hu, if_neg hij]
  | @interrupt i u hu hshutdown =>
      refine hkept ?_
      rw [put_workers, getElem?_replace hu]
      split
      · rename_i hij
        subst hij
        rw [hw] at hu
        cases hu
        rw [Worker.interrupt, hs, hw]
      · rfl
  | _ => exact hkept rfl

/-- Every event keeps the workers of a launched pool timely. -/
lemma Stepped.timely {plan : Plan} {entropy : ℕ → Generator} (hl : Launched plan entropy p)
    (h : ∀ {i : ℕ} {w : Worker}, p.workers[i]? = some w → w.Timely p.now) (hs : Stepped db p e p')
    {i : ℕ} {w' : Worker} (hw' : p'.workers[i]? = some w') : w'.Timely p'.now := by
  -- the time of the event is added after the move of the worker; one of the two is nothing
  obtain ⟨d, hd⟩ := hs.now
  rw [hd]
  obtain ⟨w, hw, rfl | ht⟩ := hs.turned hw'
  · exact (h hw).tick d
  · exact (ht.timely (hl.plan_eq ▸ hl.sound hw) (h hw)).tick d

/-! ### The invariant -/

/-- Some worker is gone with a failure. -/
def HasFailed (p : Pool σ) : Prop :=
  ∃ (i : ℕ) (w : Worker) (x : Exit), p.workers[i]? = some w ∧ w.stage = .gone x ∧
    (x.failure? w.index).isSome = true

/-- A pool under a plan and a policy that nobody cancels from outside. -/
structure Attended (plan : Plan) (policy : FailurePolicy) (entropy : ℕ → Generator) (p : Pool σ) :
    Prop where
  launched : Launched plan entropy p
  policy_eq : p.policy = policy
  timely : ∀ {i : ℕ} {w : Worker}, p.workers[i]? = some w → w.Timely p.now
  handle : p.signals.handle = true
  /-- The shutdown was asked for by a worker that failed, under the abort policy. -/
  cause : p.signals.shutdown = true → policy = .abort ∧ p.HasFailed
  /-- Under the abort policy a worker that failed has asked for the shutdown. -/
  heard : policy = .abort → p.HasFailed → p.signals.shutdown = true
  stopped : p.Startable → ∀ {i : ℕ} {w : Worker}, p.workers[i]? = some w → w.Stopped →
    p.signals.shutdown = true

section Attended

variable {plan : Plan} {policy : FailurePolicy} {entropy : ℕ → Generator}

lemma Attended.launch (plan : Plan) (policy : FailurePolicy) (count : ℕ) (entropy : ℕ → Generator)
    (store : σ) :
    Attended plan policy entropy (launch plan policy count entropy store) := by
  have hworker {i : ℕ} {w : Worker}
      (hw : (Pool.launch plan policy count entropy store).workers[i]? = some w) :
      w = Worker.launch plan entropy i :=
    (launch_workers plan policy count entropy store hw).2
  refine ⟨.launch plan policy count entropy store, rfl, ?_, rfl, ?_, ?_, ?_⟩
  · intro i w hw
    rw [hworker hw]
    exact .launch plan entropy i
  · intro h
    cases h
  · rintro - ⟨i, w, x, hw, hs, -⟩
    rw [hworker hw] at hs
    cases hs
  · intro _ i w hw hs
    rw [hworker hw] at hs
    rcases hs with hs | hs <;> cases hs

lemma HasFailed.stepped (h : p.HasFailed) (hs : Stepped db p e p') : p'.HasFailed := by
  obtain ⟨i, w, x, hw, hstage, hfailure⟩ := h
  exact ⟨i, w, x, hs.of_gone hw hstage, hstage, hfailure⟩

/-- A worker that aborts the pool has failed, and the shutdown is asked for. -/
lemma Aborts.retire {i : ℕ} {w : Worker} {x : Exit} (h : p.Aborts i w x)
    (hhandle : p.signals.handle = true) :
    (p.retire i w x).HasFailed ∧ (p.retire i w x).signals.shutdown = true := by
  constructor
  · refine ⟨i, w.finish.1, x, ?_, ?_, ?_⟩
    · rw [retire_workers, getElem?_replace h.worker, if_pos rfl]
    · rw [Worker.finish, h.stage]
      rfl
    · rw [Worker.finish, h.stage]
      exact h.failure
  · rw [retire_eq, if_pos (by simp [h.failure, h.policy]), put_signals, requestShutdown_signals]
    simp [note, hhandle]

/-- **Every event but a cancellation from outside keeps the invariant.** -/
theorem Attended.stepped (h : Attended plan policy entropy p) (hs : Stepped db p e p')
    (he : e ≠ .cancel) : Attended plan policy entropy p' := by
  refine ⟨h.launched.stepped hs, hs.policy.trans h.policy_eq, ?_, hs.handle.trans h.handle, ?_, ?_,
    ?_⟩
  · exact hs.timely h.launched h.timely
  · intro hshutdown
    rcases hs.shutdown_cause he hshutdown with hbefore | ⟨i, w, x, habort, rfl⟩
    · exact ⟨(h.cause hbefore).1, (h.cause hbefore).2.stepped hs⟩
    · exact ⟨h.policy_eq ▸ habort.policy, (habort.retire h.handle).1⟩
  · rintro hpolicy ⟨i, w', x, hw', hstage, hfailure⟩
    obtain ⟨w, hw, rfl | ht⟩ := hs.turned hw'
    · exact hs.shutdown (h.heard hpolicy ⟨i, w', x, hw, hstage, hfailure⟩)
    · -- the worker has just retired
      have hleaving := ht.gone hstage
      rw [ht.moved.index] at hfailure
      have habort : p.Aborts i w x := ⟨hw, hleaving, hfailure, h.policy_eq.trans hpolicy⟩
      rw [hs.retired hw hleaving hw' hstage]
      exact (habort.retire h.handle).2
  · intro hstart i w' hw' hstopped
    obtain ⟨w, hw, rfl | ht⟩ := hs.turned hw'
    · exact hs.shutdown (h.stopped (hs.startable hstart) hw hstopped)
    · refine hs.shutdown ?_
      rcases ht.stopped hstopped with hbefore | hraised | hgo
      · exact h.stopped (hs.startable hstart) hw hbefore
      · exact hraised
      · by_contra hshutdown
        have hgo := Signals.go_of_started (hs.startable hstart) (Bool.not_eq_true _ ▸ hshutdown) hgo
        cases hgo

/-- What becomes of a worker, from where it stands, is what its draws and the replies to its calls
have it, as long as the replies so far are these. -/
def Foreseen (plan : Plan) (g : Generator) (replies : ℕ → Reply (Option Bool)) (i : ℕ)
    (p : Pool σ) : Prop :=
  p.Startable → p.now < Duration.limit → ∀ w, p.workers[i]? = some w → RepliedBy replies w.row →
    w.future plan replies = plan.outcome i g replies

lemma Foreseen.launch (plan : Plan) (policy : FailurePolicy) (count : ℕ) (entropy : ℕ → Generator)
    (store : σ) (replies : ℕ → Reply (Option Bool)) (i : ℕ) :
    Foreseen plan (plan.generator entropy i) replies i
      (Pool.launch plan policy count entropy store) := by
  intro _ _ w hw _
  rw [(launch_workers plan policy count entropy store hw).2]
  exact Worker.future_launch plan replies entropy i

/-- **Whatever the others do changes nothing for a worker** under the policy to continue. -/
theorem Foreseen.stepped {g : Generator} {replies : ℕ → Reply (Option Bool)} {i : ℕ}
    (h : Foreseen plan g replies i p) (ha : Attended plan .continue entropy p)
    (hlast : plan.last < Totals.counterLimit) (hs : Stepped db p e p') :
    Foreseen plan g replies i p' := by
  intro hstart hnow w' hw' hreplies
  have hstart := hs.startable hstart
  have hnow : p.now < Duration.limit := by
    obtain ⟨d, hd⟩ := hs.now
    omega
  obtain ⟨w, hw, rfl | ht⟩ := hs.turned hw'
  · exact h hstart hnow w' hw hreplies
  · rw [ha.launched.plan_eq] at ht
    have hsound := ha.launched.sound hw
    -- under this policy nobody but an operator shuts the pool down, and there is none
    have hshutdown : p.signals.shutdown = false := by
      by_contra hraised
      have hpolicy := (ha.cause (Bool.not_eq_false _ ▸ hraised)).1
      cases hpolicy
    have hbefore : RepliedBy replies w.row := fun s hmem => hreplies s ((ht.row hsound).subset hmem)
    rw [ht.future hsound (ha.timely hw) hstart hshutdown hlast hnow hreplies]
    exact h hstart hnow w hw hbefore

/-- After a run without a cancellation from outside the invariant holds. -/
lemma Attended.run (plan : Plan) (policy : FailurePolicy) (count : ℕ) (entropy : ℕ → Generator)
    (store : σ) (db : Database σ) {events : List Event} (hcancel : .cancel ∉ events) :
    Attended plan policy entropy ((Pool.launch plan policy count entropy store).run db events) :=
  run_induction_of_mem (fun he h hs => h.stepped hs fun heq => hcancel (heq ▸ he))
    (.launch plan policy count entropy store)

lemma Foreseen.run (plan : Plan) (count : ℕ) (entropy : ℕ → Generator) (store : σ)
    (db : Database σ) {events : List Event} (hcancel : .cancel ∉ events)
    (hlast : plan.last < Totals.counterLimit) (replies : ℕ → Reply (Option Bool)) (i : ℕ) :
    Foreseen plan (plan.generator entropy i) replies i
      ((Pool.launch plan .continue count entropy store).run db events) := by
  have hboth : Attended plan .continue entropy
        ((Pool.launch plan .continue count entropy store).run db events) ∧
      Foreseen plan (plan.generator entropy i) replies i
        ((Pool.launch plan .continue count entropy store).run db events) :=
    run_induction_of_mem
      (P := fun q => Attended plan .continue entropy q ∧
        Foreseen plan (plan.generator entropy i) replies i q)
      (fun he h hs => ⟨h.1.stepped hs fun heq => hcancel (heq ▸ he), h.2.stepped h.1 hlast hs⟩)
      ⟨.launch plan .continue count entropy store, .launch plan .continue count entropy store _ i⟩
  exact hboth.2

/-! ### The reports -/

/-- The report of a worker, once it is gone. -/
def reportOf? (p : Pool σ) (i : ℕ) : Option WorkerReport :=
  p.workers[i]?.bind Worker.report?

lemma reportOf?_eq_some_iff {i : ℕ} {r : WorkerReport} :
    p.reportOf? i = some r ↔
      ∃ w x, p.workers[i]? = some w ∧ w.stage = .gone x ∧ w.reportOf x = r := by
  rw [reportOf?, Option.bind_eq_some_iff]
  refine exists_congr fun w => ⟨?_, ?_⟩
  · rintro ⟨hw, hr⟩
    rw [Worker.report?] at hr
    split at hr
    · rename_i x hs
      exact ⟨x, hw, hs, Option.some.inj hr⟩
    · cases hr
  · rintro ⟨x, hw, hs, hr⟩
    refine ⟨hw, ?_⟩
    simp only [Worker.report?, hs, hr]

/-- Some worker has failed when some report carries a failure. -/
lemma hasFailed_iff :
    p.HasFailed ↔ ∃ i r, p.reportOf? i = some r ∧ r.failure.isSome = true := by
  constructor
  · rintro ⟨i, w, x, hw, hs, hfailure⟩
    exact ⟨i, w.reportOf x, reportOf?_eq_some_iff.mpr ⟨w, x, hw, hs, rfl⟩, hfailure⟩
  · rintro ⟨i, r, hr, hfailure⟩
    obtain ⟨w, x, hw, hs, rfl⟩ := reportOf?_eq_some_iff.mp hr
    exact ⟨i, w, x, hw, hs, hfailure⟩

/-- A report that says that the worker was stopped has its cause in one with a failure, under the
abort policy. -/
lemma Attended.cause_of_cancelled (h : Attended plan policy entropy p) (hstart : p.Startable)
    {i : ℕ} {r : WorkerReport} (hr : p.reportOf? i = some r) (hcancelled : r.cancelled = true) :
    policy = .abort ∧ p.HasFailed := by
  obtain ⟨w, x, hw, hs, rfl⟩ := reportOf?_eq_some_iff.mp hr
  have hx : x = .cancelled := of_decide_eq_true hcancelled
  exact h.cause (h.stopped hstart hw (.inr (hx ▸ hs)))

/-- Where no worker has failed, or failures stop nobody, no report says that a worker was stopped. -/
lemma Attended.uncancelled (h : Attended plan policy entropy p) (hstart : p.Startable)
    (hfree : policy = .abort → ¬ p.HasFailed) {i : ℕ} {r : WorkerReport}
    (hr : p.reportOf? i = some r) : r.cancelled = false := by
  by_contra hcancelled
  obtain ⟨hpolicy, hfailed⟩ :=
    h.cause_of_cancelled hstart hr (Bool.not_eq_false _ ▸ hcancelled)
  exact hfree hpolicy hfailed

/-- A worker that neither failed nor was stopped has gone through all its iterations. -/
lemma Launched.completed (h : Launched plan entropy p) {i : ℕ} {r : WorkerReport}
    (hr : p.reportOf? i = some r) (hcancelled : r.cancelled = false) (hfailure : r.failure = none) :
    r.tally.totals.iterations = plan.last := by
  obtain ⟨w, x, hw, hs, rfl⟩ := reportOf?_eq_some_iff.mp hr
  have hended := (h.sound hw).of_gone hs
  cases x with
  | cancelled => exact absurd hcancelled (by simp [Worker.reportOf])
  | failed e => cases hfailure
  | panicked reason => cases hfailure
  | completed =>
      generalize w.calls = calls at hended
      generalize htotals : w.tally.totals = t at hended
      cases hended with
      | completed hsettled hlast =>
          show w.tally.totals.iterations = plan.last
          rw [htotals, hsettled.iterations, hlast]

/-- Once the start was signalled a pool can be brought to its end. -/
lemma Attended.exists_over (h : Attended plan policy entropy p) (db : Database σ)
    (hfired : p.signals.fired = true) :
    ∃ more, .cancel ∉ more ∧ (p.run db more).isOver = true := by
  have hstarted : Started p := by
    refine ⟨?_, fun {i w} hw => ⟨plan.generator entropy i, ?_⟩⟩
    · rw [Signals.started]
      split
      · simp
      · simp [Signals.ready, Signals.waitStart, Signals.Wait.of, hfired]
    · rw [h.launched.plan_eq]
      exact h.launched.sound hw
  obtain ⟨more, hmore, hover, -⟩ := Pool.exists_over db hstarted
  refine ⟨more, fun hcancel => ?_, hover⟩
  rcases hmore _ hcancel with ⟨i, hi⟩ | ⟨d, hd⟩
  · cases hi
  · cases hd

/-- A worker that is gone reports what was foreseen for it. -/
lemma Foreseen.tells {g : Generator} {replies : ℕ → Reply (Option Bool)} {i : ℕ}
    (h : Foreseen plan g replies i p) (hstart : p.Startable) (hnow : p.now < Duration.limit)
    {w : Worker} (hw : p.workers[i]? = some w) (hindex : w.index = i) {x : Exit}
    (hs : w.stage = .gone x) (hreplies : RepliedBy replies w.row) :
    (w.reportOf x).Tells i (plan.outcome i g replies) := by
  have hfuture : w.future plan replies = (x, (w.reportOf x).tally.totals.untimed) := by
    rw [Worker.future, hs]
  rw [← h hstart hnow w hw hreplies, hfuture]
  exact ⟨hindex, rfl, hindex ▸ rfl, rfl⟩

end Attended

/-- **A worker is stopped for a cause.** In a pool that is not cancelled from outside, a worker that
failed under the abort policy has raised the shutdown signal when its report is there. If moreover
the start was signalled or still can be, no worker is stopped under the policy to continue, and each
reports what its draws and the replies to its own calls have it, latencies aside; under the abort
policy a worker is stopped only when another one has failed, and when none has failed all go through
all their iterations. Once the start was signalled the pool can be brought to its end from wherever
it stands. The bound of a plan is a number of 64 bits, and the time one that a duration holds. -/
theorem cancelled_for_cause (db : Database σ) (plan : Plan) (policy : FailurePolicy) (count : ℕ)
    (entropy : ℕ → Generator) (store : σ) (events : List Event) (hcancel : .cancel ∉ events) :
    let start := launch plan policy count entropy store
    let p := start.run db events
    (policy = .continue → p.Startable → ∀ i r, p.reportOf? i = some r →
      r.cancelled = false ∧
        (plan.maxIterations ≤ Totals.counterLimit → p.now < Duration.limit →
          ∀ replies, RepliedBy replies (start.trace db events i) →
            r.Tells i (plan.outcome i (plan.generator entropy i) replies))) ∧
    (policy = .abort → p.Startable → ∀ i r, p.reportOf? i = some r →
      (r.cancelled = true → ∃ j q, p.reportOf? j = some q ∧ q.failure.isSome = true) ∧
        ((∀ j q, p.reportOf? j = some q → q.failure = none) →
          r.cancelled = false ∧ r.tally.totals.iterations = plan.last)) ∧
    (policy = .abort → ∀ i r, p.reportOf? i = some r → r.failure.isSome = true →
      p.signals.shutdown = true) ∧
    (p.signals.fired = true → ∃ more, .cancel ∉ more ∧ (p.run db more).isOver = true) := by
  intro start p
  have hattended : Attended plan policy entropy p :=
    .run plan policy count entropy store db hcancel
  refine ⟨?_, ?_, ?_, hattended.exists_over db⟩
  · rintro rfl hstart i r hr
    refine ⟨hattended.uncancelled hstart (fun h => by cases h) hr, ?_⟩
    intro hmax hnow replies hreplies
    have hlast : plan.last < Totals.counterLimit := by
      rw [Plan.last, Totals.counterLimit] at *
      omega
    obtain ⟨w, x, hw, hs, rfl⟩ := reportOf?_eq_some_iff.mp hr
    obtain ⟨-, hindex, htrace⟩ := trace_eq_row db plan .continue count entropy store events hw
    have hforeseen : Foreseen plan (plan.generator entropy i) replies i p :=
      .run plan count entropy store db hcancel hlast replies i
    exact hforeseen.tells hstart hnow hw hindex hs (htrace ▸ hreplies)
  · rintro rfl hstart i r hr
    refine ⟨fun hcancelled => ?_, fun hnone => ?_⟩
    · exact hasFailed_iff.mp (hattended.cause_of_cancelled hstart hr hcancelled).2
    -- no failure is reported, so there was none, and no cause to stop
    · have hfree : ¬ p.HasFailed := by
        intro hfailed
        obtain ⟨j, q, hq, hfailure⟩ := hasFailed_iff.mp hfailed
        rw [hnone j q hq] at hfailure
        cases hfailure
      have hcancelled := hattended.uncancelled hstart (fun _ => hfree) hr
      exact ⟨hcancelled, hattended.launched.completed hr hcancelled (hnone i r hr)⟩
  · rintro rfl i r hr hfailure
    exact hattended.heard rfl (hasFailed_iff.mpr ⟨i, r, hr, hfailure⟩)

/-- Two strict workers at a store that holds the guard. The first one is held up at its second call:
under the abort policy it stops the other one, under the policy to continue the other one goes on
until it is held up, too. -/
theorem cancelled_for_cause_at_held_guard :
    let plan : Plan := ⟨"shared", "guard", "value", 5, 1, Duration.zero, 2, true, none⟩
    let entropy : ℕ → Generator := fun _ => ⟨Key.ofSeed 0, 0, [0, 0x80000000]⟩
    let start (policy : FailurePolicy) := launch plan policy 2 entropy
      (Memory.fresh.withKeyspace 0 (Table.empty.insert "guard" "held"))
    let events := .start :: List.replicate 9 (.turn 0) ++ List.replicate 9 (.turn 1)
    let replies (k : ℕ) : Reply (Option Bool) := .answered (if k = 2 then some false else none)
    (∃ r, ((start .abort).run (Memory.databaseOf 0) events).reportOf? 1 = some r ∧
      r.cancelled = true ∧ ∃ j q,
        ((start .abort).run (Memory.databaseOf 0) events).reportOf? j = some q ∧
          q.failure.isSome = true) ∧
    ∃ r, ((start .continue).run (Memory.databaseOf 0) events).reportOf? 1 = some r ∧
      r.failure = some (.guarded 1 2) ∧ r.Tells 1 (plan.outcome 1 (entropy 1) replies) := by
  intro plan entropy start events replies
  have hcancel : Event.cancel ∉ events := by decide
  have hstopped : (((start .abort).run (Memory.databaseOf 0) events).reportOf? 1).map
      WorkerReport.cancelled = some true := by decide +kernel
  have hheld : (((start .continue).run (Memory.databaseOf 0) events).reportOf? 1).map
      WorkerReport.failure = some (some (.guarded 1 2)) := by decide +kernel
  have hreplies : RepliedBy replies ((start .continue).trace (Memory.databaseOf 0) events 1) := by
    decide +kernel
  obtain ⟨r, hr, hcancelled⟩ := Option.map_eq_some_iff.mp hstopped
  obtain ⟨r', hr', hfailure⟩ := Option.map_eq_some_iff.mp hheld
  refine ⟨⟨r, hr, hcancelled, ?_⟩, r', hr', hfailure, ?_⟩
  · have hcause := (cancelled_for_cause (Memory.databaseOf 0) plan .abort 2 entropy
      (Memory.fresh.withKeyspace 0 (Table.empty.insert "guard" "held")) events hcancel).2.1 rfl
    exact (hcause (.inl (by decide +kernel)) 1 r hr).1 hcancelled
  · have htold := (cancelled_for_cause (Memory.databaseOf 0) plan .continue 2 entropy
      (Memory.fresh.withKeyspace 0 (Table.empty.insert "guard" "held")) events hcancel).1 rfl
    exact (htold (.inl (by decide +kernel)) 1 r' hr').2 (by decide) (by decide +kernel) replies
      hreplies

/-- Where the lifecycle is given up before the start, a worker is stopped without a cause: nobody has
asked for the shutdown, and no worker has failed. -/
theorem cancelled_without_start :
    let plan : Plan := ⟨"shared", "guard", "value", 5, 1, Duration.zero, 2, true, none⟩
    let events : List Event := [.dropLifecycle, .turn 0, .turn 0]
    let p := (launch plan .continue 1 (fun _ => ⟨Key.ofSeed 0, 0, []⟩) Memory.fresh).run
      (Memory.databaseOf 0) events
    .cancel ∉ events ∧ p.signals.shutdown = false ∧
      ∃ r, p.reportOf? 0 = some r ∧ r.cancelled = true ∧ r.failure = none := by
  intro plan events p
  have hend : (p.reportOf? 0).map (fun r => (r.cancelled, r.failure)) = some (true, none) := by
    decide +kernel
  obtain ⟨r, hr, hpair⟩ := Option.map_eq_some_iff.mp hend
  obtain ⟨hcancelled, hfailure⟩ := Prod.mk.inj hpair
  exact ⟨by decide, by decide +kernel, r, hr, hcancelled, hfailure⟩

end Pool

end StoreSoak
