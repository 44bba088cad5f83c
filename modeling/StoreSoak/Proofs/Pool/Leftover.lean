import StoreSoak.Proofs.Pool.Causes
import StoreSoak.Proofs.Pool.Reports
import StoreSoak.Proofs.Report.Classes

/-!
What a worker that was stopped has left undone.

A worker that is stopped has iterations left, but for one that was stopped in the pause after its
last one.

* `Worker.Exhausted`: the worker was stopped with all its iterations behind it. `Turned.exhausted`:
  no other turn brings a worker there than the end of its last pause by the shutdown signal.
* `CutShort`: in the course of a run the shutdown signal cut the last pause of a worker short.
  `exhausted_run`: just then a worker is exhausted.
* `stopped_with_work_left` says this of the reports of a pool, and
  `stopped_with_nothing_left` is a worker that reports so.
-/

namespace StoreSoak

namespace Worker

variable {p : Plan} {g : Generator} {s : Signals} {now : ℕ} {w w' : Worker}

/-- The worker was stopped with all its iterations behind it. -/
def Exhausted (p : Plan) (w : Worker) : Prop :=
  w.Stopped ∧ w.calls.length = p.last

/-- A worker is in the pause after its last iteration. -/
def InLastPause (p : Plan) (w : Worker) : Prop :=
  ∃ wake, w.stage = .pausing p.last wake

lemma not_exhausted (hcancelled : w.stage ≠ .leaving .cancelled)
    (hgone : w.stage ≠ .gone .cancelled) : ¬ w.Exhausted p :=
  fun h => h.1.elim hcancelled hgone

/-- No turn but the end of its last pause by the shutdown signal brings a worker to be stopped with
all its iterations behind it. -/
lemma Turned.exhausted (ht : Turned p s now w w') (hsound : Sound p g w) (hlast : 0 < p.last)
    (hcut : w.InLastPause p → w' ≠ w.interrupt.1) : w'.Exhausted p ↔ w.Exhausted p := by
  have hneither (h : ¬ w.Exhausted p) (h' : ¬ w'.Exhausted p) : w'.Exhausted p ↔ w.Exhausted p :=
    iff_of_false h' h
  cases ht with
  | @release go hs hgo =>
      have hcalls := (hsound.of_parked hs).1
      refine hneither (not_exhausted (by simp [hs]) (by simp [hs])) fun h => ?_
      have hlength : (w.release go).1.calls = w.calls := by
        simp only [Worker.release, hs]
        split <;> rfl
      rw [Exhausted, hlength, hcalls] at h
      exact Nat.ne_of_lt hlast h.2
  | @check k hs =>
      obtain ⟨hk, -⟩ := hsound.of_looping hs
      refine hneither (not_exhausted (by simp [hs]) (by simp [hs])) fun h => ?_
      simp only [Worker.check, hs] at h
      by_cases hbound : p.maxIterations ≤ k
      · rw [if_pos hbound] at h
        exact not_exhausted (by simp [goTo]) (by simp [goTo]) h
      · -- there is an iteration left to clear
        rw [if_neg hbound] at h
        have hlength : w.calls.length = p.last := by
          have h2 := h.2
          split at h2 <;> exact h2
        rw [Plan.last] at hlength
        omega
  | issue hs =>
      refine hneither (not_exhausted (by simp [hs]) (by simp [hs])) ?_
      simp only [Worker.issue, hs]
      exact not_exhausted (by simp) (by simp)
  | receive hs _ =>
      exact hneither (not_exhausted (by simp [hs]) (by simp [hs])) fun h =>
        not_stopped_receive hs _ h.1
  | resume hs =>
      refine hneither (not_exhausted (by simp [hs]) (by simp [hs])) ?_
      simp only [Worker.resume, hs]
      exact not_exhausted (by simp [goTo]) (by simp [goTo])
  | @interrupt k wake hs hshutdown =>
      refine hneither (not_exhausted (by simp [hs]) (by simp [hs])) fun h => ?_
      have hlength : w.interrupt.1.calls = w.calls := by simp only [Worker.interrupt, hs, stop, goTo]
      have hk := (hsound.of_pausing hs).1
      have hpause : w.InLastPause p := ⟨wake, by rw [hs, hk, ← hlength, h.2]⟩
      exact hcut hpause rfl
  | @finish e hs =>
      have hlength : w.finish.1.calls = w.calls := by simp only [Worker.finish, hs, goTo]
      have hstage : w.finish.1.stage = .gone e := by simp only [Worker.finish, hs, goTo]
      rw [Exhausted, Exhausted, Stopped, Stopped, hlength, hstage, hs]
      simp

/-- The shutdown signal at its last pause stops a worker with all its iterations behind it. -/
lemma Sound.exhausted_interrupt (hsound : Sound p g w) (h : w.InLastPause p) :
    w.interrupt.1.Exhausted p := by
  obtain ⟨wake, hs⟩ := h
  simp only [Worker.interrupt, hs, stop]
  exact ⟨.inl rfl, (hsound.of_pausing hs).1.symm⟩

/-- A worker begins a pause only after an iteration that calls for one. -/
lemma Turned.throttles (ht : Turned p s now w w') {k wake : ℕ} (hs' : w'.stage = .pausing k wake) :
    Plan.throttles p.throttleInterval k = true := by
  -- only a receipt leads into a pause
  cases ht with
  | @release go hs hgo =>
      simp only [Worker.release, hs] at hs'
      cases go <;> cases hs'
  | check hs =>
      simp only [Worker.check, hs] at hs'
      split at hs'
      · cases hs'
      · split at hs' <;> cases hs'
  | issue hs =>
      simp only [Worker.issue, hs] at hs'
      cases hs'
  | receive hs hadmits =>
      rcases receive_stage (p := p) hs now _ with ⟨e, he, -⟩ | ⟨hth, he⟩ | ⟨-, he⟩
      · rw [he] at hs'
        cases hs'
      · rw [he] at hs'
        cases hs'
        exact hth
      · rw [he] at hs'
        cases hs'
  | resume hs =>
      simp only [Worker.resume, hs] at hs'
      cases hs'
  | interrupt hs hshutdown =>
      simp only [Worker.interrupt, hs] at hs'
      cases hs'
  | finish hs =>
      simp only [Worker.finish, hs] at hs'
      cases hs'

end Worker

namespace Pool

variable {σ : Type} {db : Database σ} {p p' : Pool σ} {e : Event} {i : ℕ} {plan : Plan}
  {entropy : ℕ → Generator}

/-- The shutdown signal is raised while the worker at a place is in the pause after its last
iteration. -/
def Cuts (p : Pool σ) (i : ℕ) : Prop :=
  p.signals.shutdown = true ∧ ∃ w, p.workers[i]? = some w ∧ w.InLastPause p.plan

/-- In the course of a run the shutdown signal ends the last pause of the worker. -/
def CutShort (db : Database σ) (p : Pool σ) (events : List Event) (i : ℕ) : Prop :=
  ∃ before after, events = before ++ .interrupt i :: after ∧ (p.run db before).Cuts i

lemma cutShort_cons {events : List Event} :
    p.CutShort db (e :: events) i ↔
      e = .interrupt i ∧ p.Cuts i ∨ (p.step db e).CutShort db events i := by
  constructor
  · rintro ⟨before, after, hevents, hcuts⟩
    cases before with
    | nil =>
        cases hevents
        exact .inl ⟨rfl, hcuts⟩
    | cons e' before =>
        cases hevents
        exact .inr ⟨before, after, rfl, hcuts⟩
  · rintro (⟨rfl, hcuts⟩ | ⟨before, after, rfl, hcuts⟩)
    · exact ⟨[], events, rfl, hcuts⟩
    · exact ⟨e :: before, after, rfl, hcuts⟩

/-- The worker at a place was stopped with all its iterations behind it. -/
def Exhausted (p : Pool σ) (i : ℕ) : Prop :=
  ∃ w, p.workers[i]? = some w ∧ w.Exhausted p.plan

/-- An event that does not cut its last pause short leaves a worker exhausted or not. -/
lemma Stepped.exhausted (h : Stepped db p e p') (hl : Launched plan entropy p)
    (hlast : 0 < plan.last) (hcut : ¬ (e = .interrupt i ∧ p.Cuts i)) :
    p'.Exhausted i ↔ p.Exhausted i := by
  have hplan := h.plan
  have hsame (hworkers : p'.workers[i]? = p.workers[i]?) : p'.Exhausted i ↔ p.Exhausted i := by
    rw [Exhausted, Exhausted, hworkers, hplan]
  have hturn {j : ℕ} {w v : Worker} (hw : p.workers[j]? = some w)
      (ht : w.Turned p.plan p.signals p.now v)
      (hpause : j = i → w.InLastPause p.plan → v ≠ w.interrupt.1)
      (hworkers : p'.workers = p.workers.setIfInBounds j v) : p'.Exhausted i ↔ p.Exhausted i := by
    by_cases hij : j = i
    · subst hij
      rw [Exhausted, Exhausted, hplan, hworkers, getElem?_replace hw, if_pos rfl, hw]
      simp only [Option.some.injEq, exists_eq_left']
      have hsound : w.Sound p.plan (plan.generator entropy j) := hl.plan_eq ▸ hl.sound hw
      exact ht.exhausted hsound (hl.plan_eq ▸ hlast) (hpause rfl)
    · exact hsame (by rw [hworkers, getElem?_replace hw, if_neg hij])
  cases h with
  | tick d => exact hsame rfl
  | start => exact hsame rfl
  | cancel => exact hsame (by rw [requestShutdown_workers])
  | dropLifecycle => exact hsame rfl
  | idle => exact hsame rfl
  | release hw hs hgo =>
      exact hturn hw (.release hs hgo) (fun _ ⟨_, hp⟩ => by rw [hs] at hp; cases hp) rfl
  | check hw hs => exact hturn hw (.check hs) (fun _ ⟨_, hp⟩ => by rw [hs] at hp; cases hp) rfl
  | issue hw hs => exact hturn hw (.issue hs) (fun _ ⟨_, hp⟩ => by rw [hs] at hp; cases hp) rfl
  | receive hw hs hr =>
      refine hturn hw (.receive hs ?_) (fun _ ⟨_, hp⟩ => by rw [hs] at hp; cases hp) rfl
      rw [← hr]
      exact Request.admits_perform _ _ _ _
  | @resume j k wake w hw hs hwake =>
      refine hturn hw (.resume hs) (fun _ _ hsame => ?_) rfl
      have hstage := congrArg Worker.stage hsame
      simp only [Worker.resume, Worker.interrupt, hs] at hstage
      cases hstage
  | retire hw hs =>
      exact hturn hw (.finish hs) (fun _ ⟨_, hp⟩ => by rw [hs] at hp; cases hp) (retire_workers ..)
  | @interrupt j w hw hshutdown =>
      cases hs : w.stage with
      | pausing k wake =>
          refine hturn hw (.interrupt hs hshutdown) (fun hij hpause _ => ?_) rfl
          subst hij
          exact hcut ⟨rfl, hshutdown, w, hw, hpause⟩
      | _ =>
          -- a worker that does not pause hears nothing
          refine hsame ?_
          rw [put_workers, getElem?_replace hw]
          split
          · rename_i hij
            rw [← hij, hw, Worker.interrupt, hs]
          · rfl

/-- An event stops a worker with all its iterations behind it exactly when it cuts its last pause
short. -/
lemma exhausted_step (db : Database σ) (hl : Launched plan entropy p) (hlast : 0 < plan.last)
    (e : Event) :
    (p.step db e).Exhausted i ↔ p.Exhausted i ∨ e = .interrupt i ∧ p.Cuts i := by
  by_cases hcut : e = .interrupt i ∧ p.Cuts i
  · refine iff_of_true ?_ (.inr hcut)
    obtain ⟨rfl, hshutdown, w, hw, hpause⟩ := hcut
    have hsound : w.Sound p.plan (plan.generator entropy i) := hl.plan_eq ▸ hl.sound hw
    refine ⟨w.interrupt.1, ?_, ?_⟩
    · simp only [step, hw, interrupt, hshutdown, if_true]
      rw [put_workers, getElem?_replace hw, if_pos rfl]
    · rw [(stepped db p _).plan]
      exact hsound.exhausted_interrupt hpause
  · rw [(stepped db p e).exhausted hl hlast hcut]
    simp [hcut]

/-- A worker is exhausted after a run exactly when it was before or its last pause was cut short. -/
lemma exhausted_run (db : Database σ) (hl : Launched plan entropy p) (hlast : 0 < plan.last)
    (events : List Event) :
    (p.run db events).Exhausted i ↔ p.Exhausted i ∨ p.CutShort db events i := by
  induction events generalizing p with
  | nil => simp [CutShort]
  | cons e events ih =>
      rw [run_cons, ih (hl.stepped (stepped db p e)), exhausted_step db hl hlast, cutShort_cons,
        or_assoc]

/-- Every pause follows an iteration that calls for one. -/
def Throttled (plan : Plan) (p : Pool σ) : Prop :=
  ∀ (i : ℕ) (w : Worker) (k wake : ℕ), p.workers[i]? = some w → w.stage = .pausing k wake →
    Plan.throttles plan.throttleInterval k = true

lemma Throttled.stepped (h : Throttled plan p) (hl : Launched plan entropy p)
    (hs : Stepped db p e p') : Throttled plan p' := by
  intro i w' k wake hw' hstage
  obtain ⟨w, hw, rfl | ht⟩ := hs.turned hw'
  · exact h i w' k wake hw hstage
  · exact hl.plan_eq ▸ ht.throttles hstage

lemma run_throttled (db : Database σ) (plan : Plan) (policy : FailurePolicy) (count : ℕ)
    (entropy : ℕ → Generator) (store : σ) (events : List Event) :
    Launched plan entropy ((launch plan policy count entropy store).run db events) ∧
      Throttled plan ((launch plan policy count entropy store).run db events) := by
  refine run_induction (P := fun q => Launched plan entropy q ∧ Throttled plan q)
    (fun h hs => ⟨h.1.stepped hs, h.2.stepped h.1 hs⟩)
    ⟨.launch plan policy count entropy store, fun i w k wake hw hs => ?_⟩ events
  rw [(launch_workers plan policy count entropy store hw).2] at hs
  cases hs

/-- Nobody is exhausted at the launch. -/
lemma not_exhausted_launch (plan : Plan) (policy : FailurePolicy) (count : ℕ)
    (entropy : ℕ → Generator) (store : σ) (i : ℕ) :
    ¬ (launch plan policy count entropy store).Exhausted i := by
  rintro ⟨w, hw, hstopped, -⟩
  rw [(launch_workers plan policy count entropy store hw).2] at hstopped
  rcases hstopped with h | h <;> cases h

/-- A report says that its worker was stopped with all its iterations executed exactly when the
worker is exhausted. -/
lemma Launched.exhausted_iff (hl : Launched plan entropy p) {r : WorkerReport}
    (hr : p.reportOf? i = some r) :
    p.Exhausted i ↔ r.cancelled = true ∧ r.tally.totals.iterations = plan.last := by
  obtain ⟨w, x, hw, hs, rfl⟩ := reportOf?_eq_some_iff.mp hr
  have hended := (hl.sound hw).of_gone hs
  have hexhausted : p.Exhausted i ↔ x = .cancelled ∧ w.calls.length = plan.last := by
    rw [Exhausted, hw, hl.plan_eq]
    simp only [Option.some.injEq, exists_eq_left', Worker.Exhausted, Worker.Stopped, hs]
    simp
  rw [hexhausted]
  simp only [Worker.reportOf, decide_eq_true_eq]
  refine and_congr_right fun hx => ?_
  subst hx
  generalize w.calls = calls at hended
  generalize w.tally.totals = t at hended
  cases hended with
  | cancelled hsettled => rw [hsettled.iterations]

/-- A worker that was stopped has executed no more than all its iterations. -/
lemma Launched.iterations_le (hl : Launched plan entropy p) {r : WorkerReport}
    (hr : p.reportOf? i = some r) (hcancelled : r.cancelled = true) :
    r.failure = none ∧ r.tally.totals.iterations ≤ plan.last := by
  obtain ⟨w, x, hw, hs, rfl⟩ := reportOf?_eq_some_iff.mp hr
  have hended := (hl.sound hw).of_gone hs
  obtain rfl : x = .cancelled := of_decide_eq_true hcancelled
  refine ⟨rfl, ?_⟩
  show w.tally.totals.iterations ≤ plan.last
  generalize w.calls = calls at hended
  generalize w.tally.totals = t at hended
  cases hended with
  | cancelled hsettled =>
      rw [hsettled.iterations]
      exact hsettled.bounded

section Reports

variable {policy : FailurePolicy} {count : ℕ} {store : σ} {events : List Event} {r : WorkerReport}

/-- Among the workers of a run the signal cut short the last pauses of those that were stopped with
all their iterations executed. -/
lemma cutShort_iff (hlast : 0 < plan.last)
    (hr : ((launch plan policy count entropy store).run db events).reportOf? i = some r) :
    (launch plan policy count entropy store).CutShort db events i ↔
      r.cancelled = true ∧ r.tally.totals.iterations = plan.last := by
  have hl := (run_throttled db plan policy count entropy store events).1
  rw [← hl.exhausted_iff hr, exhausted_run db (.launch plan policy count entropy store) hlast,
    or_iff_right (not_exhausted_launch plan policy count entropy store i)]

/-- A worker with all its iterations executed counts as completed unless its last pause was cut
short. -/
lemma succeeded_iff (hlast : 0 < plan.last)
    (hr : ((launch plan policy count entropy store).run db events).reportOf? i = some r)
    (hfailure : r.failure = none) (hall : r.tally.totals.iterations = plan.last) :
    r.succeeded = true ↔ ¬ (launch plan policy count entropy store).CutShort db events i := by
  rw [cutShort_iff hlast hr, WorkerReport.succeeded, hfailure]
  simp [hall]

/-- A pause that is cut short is one that the interval calls for. -/
lemma throttles_of_cutShort
    (h : (launch plan policy count entropy store).CutShort db events i) :
    Plan.throttles plan.throttleInterval plan.last = true := by
  obtain ⟨before, after, -, -, w, hw, wake, hs⟩ := h
  obtain ⟨hl, hthrottled⟩ := run_throttled db plan policy count entropy store before
  rw [hl.plan_eq] at hs
  exact hthrottled i w plan.last wake hw hs

/-- Where no last pause was cut short, the workers that succeeded are those with all their iterations
executed and no failure. -/
lemma succeeded_iff_of_mem_reports (hlast : 0 < plan.last) {rs : List WorkerReport}
    (hreports : ((launch plan policy count entropy store).run db events).reports? = some rs)
    (huncut : ∀ i, ¬ (launch plan policy count entropy store).CutShort db events i)
    (hmem : r ∈ rs) :
    r.succeeded = true ↔
      (r.failure.isNone && r.tally.totals.iterations = plan.last) = true := by
  have hl := (run_throttled db plan policy count entropy store events).1
  obtain ⟨i, w, x, hw, hs, hreportOf⟩ := (mem_reports_iff hreports).mp hmem
  have hr := reportOf?_eq_some_iff.mpr ⟨w, x, hw, hs, hreportOf⟩
  rw [Bool.and_eq_true, Option.isNone_iff_eq_none, decide_eq_true_eq]
  constructor
  · intro h
    have hboth := h
    rw [WorkerReport.succeeded, Bool.and_eq_true, Option.isNone_iff_eq_none,
      Bool.not_eq_true'] at hboth
    exact ⟨hboth.1, hl.completed hr hboth.2 hboth.1⟩
  · rintro ⟨hfailure, hall⟩
    exact (succeeded_iff hlast hr hfailure hall).mpr (huncut i)

end Reports

/-- **A worker that was stopped has iterations left**, unless the shutdown signal cut short the pause
after its last one. A worker that has executed all its iterations without a failure counts as
completed under the same proviso, which is met wherever the interval of the pauses does not divide
the number of the last iteration; where no last pause was cut short, all these workers are completed
in the report. -/
theorem stopped_with_work_left (db : Database σ) (plan : Plan) (policy : FailurePolicy) (count : ℕ)
    (entropy : ℕ → Generator) (store : σ) (events : List Event) (hbound : 2 ≤ plan.maxIterations) :
    let start := launch plan policy count entropy store
    let p := start.run db events
    (∀ i r, p.reportOf? i = some r →
      (r.cancelled = true →
        (r.tally.totals.iterations < plan.last ↔ ¬ start.CutShort db events i)) ∧
      (r.failure = none → r.tally.totals.iterations = plan.last →
        (r.succeeded = true ↔ ¬ start.CutShort db events i)) ∧
      (start.CutShort db events i →
        r.cancelled = true ∧ r.failure = none ∧ r.tally.totals.iterations = plan.last)) ∧
    (∀ i, start.CutShort db events i →
      Plan.throttles plan.throttleInterval plan.last = true) ∧
    ∀ (a : Accounts) (report : Report), p.reports? = some a.workers →
      Report.ofAccounts a = .ok report → (∀ i, ¬ start.CutShort db events i) →
        report.completed = a.workers.countP fun r : WorkerReport =>
          r.failure.isNone && r.tally.totals.iterations = plan.last := by
  intro start p
  have hlast : 0 < plan.last := by
    rw [Plan.last]
    omega
  have hl := (run_throttled db plan policy count entropy store events).1
  refine ⟨fun i r hr => ⟨fun hcancelled => ?_, succeeded_iff hlast hr, fun h => ?_⟩,
    fun i => throttles_of_cutShort, fun a report hreports hreport huncut => ?_⟩
  · have hle := (hl.iterations_le hr hcancelled).2
    rw [cutShort_iff hlast hr, not_and]
    exact ⟨fun hlt _ => Nat.ne_of_lt hlt, fun hne => Nat.lt_of_le_of_ne hle (hne hcancelled)⟩
  · obtain ⟨hcancelled, hall⟩ := (cutShort_iff hlast hr).mp h
    exact ⟨hcancelled, (hl.iterations_le hr hcancelled).1, hall⟩
  · rw [(Report.accountsFor_of_eq hreport).completed]
    exact List.countP_congr fun r => succeeded_iff_of_mem_reports hlast hreports huncut

/-- Two workers that are stopped, the first one in its last pause, the other one with an iteration
left; and a worker that nothing stops. -/
theorem stopped_with_work_left_at_last_pause :
    let plan : Plan := ⟨"shared", "guard", "value", 3, 2, Duration.zero, 1, false, none⟩
    let entropy : ℕ → Generator := fun _ => ⟨Key.ofSeed 0, 0, [0, 0]⟩
    let start := launch plan .continue 2 entropy Memory.fresh
    let db := Memory.databaseOf 0
    let events := .start :: List.replicate 7 (.turn 0) ++ List.replicate 4 (.turn 1) ++
      [.cancel, .interrupt 0, .turn 0, .turn 1, .turn 1]
    let calm : List Event :=
      .start :: List.replicate 10 (.turn 0) ++ List.replicate 10 (.turn 1)
    2 ≤ plan.maxIterations ∧
      (∃ r, (start.run db events).reportOf? 1 = some r ∧ r.cancelled = true ∧
        r.tally.totals.iterations < plan.last ∧ ¬ start.CutShort db events 1) ∧
      (∃ r, (start.run db events).reportOf? 0 = some r ∧ r.cancelled = true ∧
        r.tally.totals.iterations = plan.last ∧ start.CutShort db events 0) ∧
      (∀ i, ¬ start.CutShort db calm i) ∧
      ∃ rs report, (start.run db calm).reports? = some rs ∧
        Report.ofAccounts ⟨rs, Duration.zero, 0, 0, "sentinel", none⟩ = .ok report ∧
        report.completed = rs.countP fun r : WorkerReport =>
          r.failure.isNone && r.tally.totals.iterations = plan.last := by
  intro plan entropy start db events calm
  have hbound : 2 ≤ plan.maxIterations := by decide
  have hstopped (i n : ℕ) (h : ((start.run db events).reportOf? i).map (fun r =>
      (r.cancelled, r.tally.totals.iterations)) = some (true, n)) :
      ∃ r, (start.run db events).reportOf? i = some r ∧ r.cancelled = true ∧
        r.tally.totals.iterations = n := by
    obtain ⟨r, hr, hpair⟩ := Option.map_eq_some_iff.mp h
    exact ⟨r, hr, (Prod.mk.inj hpair).1, (Prod.mk.inj hpair).2⟩
  obtain ⟨r, hr, hcancelled, hiterations⟩ := hstopped 1 1 (by decide +kernel)
  obtain ⟨r', hr', hcancelled', hiterations'⟩ := hstopped 0 2 (by decide +kernel)
  have hleft := (stopped_with_work_left db plan .continue 2 entropy Memory.fresh events hbound).1
  have hlt : r.tally.totals.iterations < plan.last := by
    rw [hiterations]
    decide
  -- nobody is interrupted in the calm row of events
  have huncut (i : ℕ) : ¬ start.CutShort db calm i := by
    rintro ⟨before, after, hcalm, -⟩
    have hmem : Event.interrupt i ∈ calm := by
      rw [hcalm]
      simp
    simp [calm] at hmem
  refine ⟨hbound, ⟨r, hr, hcancelled, hlt, ((hleft 1 r hr).1 hcancelled).mp hlt⟩,
    ⟨r', hr', hcancelled', hiterations', ?_⟩, huncut, ?_⟩
  · by_contra hno
    have hlt' := ((hleft 0 r' hr').1 hcancelled').mpr hno
    rw [hiterations'] at hlt'
    exact absurd hlt' (by decide)
  · have hsome : ((start.run db calm).reports?.bind fun rs =>
        (Report.ofAccounts ⟨rs, Duration.zero, 0, 0, "sentinel", none⟩).toOption.map
          Report.completed) = some 2 := by decide +kernel
    obtain ⟨rs, hrs, hok⟩ := Option.bind_eq_some_iff.mp hsome
    cases hreport : Report.ofAccounts ⟨rs, Duration.zero, 0, 0, "sentinel", none⟩ with
    | error o =>
        rw [hreport] at hok
        cases hok
    | ok report =>
        exact ⟨rs, report, hrs, hreport,
          (stopped_with_work_left db plan .continue 2 entropy Memory.fresh calm hbound).2.2
            ⟨rs, Duration.zero, 0, 0, "sentinel", none⟩ report hrs hreport huncut⟩

/-- A worker that is stopped with nothing left to do: its only iteration is behind it when the
shutdown signal ends the pause after it. -/
theorem stopped_with_nothing_left :
    let plan : Plan := ⟨"shared", "guard", "value", 2, 1, Duration.ofSeconds 1, 1, false, some 7⟩
    let events : List Event := [.start, .turn 0, .turn 0, .turn 0, .turn 0, .tick 500000000, .cancel,
      .interrupt 0, .turn 0]
    let p := (launch plan .abort 1 (fun _ => ⟨Key.ofSeed 0, 0, []⟩) Memory.fresh).run
      (Memory.databaseOf 0) events
    2 ≤ plan.maxIterations ∧ ∃ r, p.reportOf? 0 = some r ∧ r.cancelled = true ∧
      r.failure = none ∧ r.succeeded = false ∧ ¬ r.tally.totals.iterations < plan.last := by
  intro plan events p
  have hend : (p.reportOf? 0).map (fun r =>
      (r.cancelled, r.failure, r.succeeded, r.tally.totals.iterations)) =
        some (true, none, false, 1) := by decide +kernel
  obtain ⟨r, hr, hfour⟩ := Option.map_eq_some_iff.mp hend
  simp only [Prod.mk.injEq] at hfour
  obtain ⟨hcancelled, hfailure, hsucceeded, hiterations⟩ := hfour
  refine ⟨by decide, r, hr, hcancelled, hfailure, hsucceeded, ?_⟩
  rw [hiterations]
  decide

end Pool

end StoreSoak
