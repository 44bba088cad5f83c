import StoreSoak.Run.Record
import StoreSoak.Proofs.Report.Classes
import StoreSoak.Proofs.Run.Order
import StoreSoak.Proofs.Run.Progress

/-!
What a run returns.

Many things can go wrong in one run, and it returns a single result. Without a connection or a
database it returns that error and has started nothing. From its look for the sentinel key on it
meets errors in a fixed order, and the first one masks the others.

* `Pool.firstFailure?` is the failure of the failed worker with the lowest index.
* `errors` are the errors that apply to a run, in the order in which they count, and `result` is what
  they come to. Both are told from the moment of the look alone.
* `After` is the invariant from the look on: the workers and the store stay as they are, and each
  phase is reached only where nothing before it went wrong. `Early` is the invariant up to the look.
* `Verdict` says what there is in a result, and `returns` that every run has one: a run may break
  down instead, where there is no room for its chains or workers, or for what they have counted.
-/

namespace StoreSoak

namespace Pool

variable {σ : Type} {p : Pool σ}

/-- The failure of the failed worker with the lowest index, if one has failed. -/
def firstFailure? (p : Pool σ) : Option WorkerError :=
  (List.range p.workers.size).findSome? fun i => (p.reportOf? i).bind WorkerReport.failure

/-- It is the first one of the failures in the reports. -/
lemma firstFailure?_eq {rs : List WorkerReport} (h : p.reports? = some rs) :
    p.firstFailure? = (Report.failuresOf rs).head? := by
  have hrow : (List.range p.workers.size).map p.reportOf? = rs.map some := by
    rw [map_reportOf?]
    exact mapM_eq_some_iff.mp h
  calc p.firstFailure?
      = ((List.range p.workers.size).map p.reportOf?).findSome?
          fun r => r.bind WorkerReport.failure := by rw [List.findSome?_map]; rfl
    _ = rs.findSome? WorkerReport.failure := by rw [hrow, List.findSome?_map]; rfl
    _ = (Report.failuresOf rs).head? := by rw [Report.failuresOf, List.head?_filterMap]

end Pool

namespace Report

/-- The texts of a report begin with that of the first failure, and there are as many as workers
failed. -/
lemma failures_of_accounts {a : Accounts} {t : Report} (h : ofAccounts a = .ok t) :
    t.failures = (failuresOf a.workers).map WorkerError.message ∧
      t.failed = (failuresOf a.workers).length := by
  obtain hfailures := (Run.ofAccounts_parts h).1
  refine ⟨hfailures, ?_⟩
  rw [(accountsFor_of_eq h).failed, hfailures, List.length_map]

end Report

namespace Run

variable {σ : Type}

/-! ### The errors in their order -/

/-- The error of an answer that is none. -/
def errorOf {ε α : Type} : Except ε α → Option ε
  | .error e => some e
  | .ok _ => none

/-- The answer of the look for the sentinel key. -/
def sentinelAt (s : Setting σ) (db : Database σ) (q : Run σ) : Except StoreError Bool :=
  (db.keyExists s.config.sentinelKey q.pool.store).1

/-- How the connection is closed after the look. -/
def closingAt (s : Setting σ) (db : Database σ) (q : Run σ) : Except StoreError Unit :=
  (s.connection.close (db.keyExists s.config.sentinelKey q.pool.store).2).1

/-- The report that a run makes at its look. -/
def reportAt (s : Setting σ) (db : Database σ) (q : Run σ) : Except Overflow Report :=
  Report.ofAccounts (q.accounts s (sentinelAt s db q))

/-- The error of the operator's answer, who is waited for only where that is asked for and no worker
has failed. -/
def unheard? (s : Setting σ) (q : Run σ) : Option IoFault :=
  if s.config.waitForAck ∧ q.pool.firstFailure? = none then errorOf (acknowledge s.input) else none

/-- The errors that can apply to a run with its report, in the order in which they count. -/
def errors (s : Setting σ) (db : Database σ) (q : Run σ) (report : Report) :
    List (Option RunError) :=
  [(errorOf (s.reporter report)).map .io,
    (unheard? s q).map .io,
    (errorOf (closingAt s db q)).map .store,
    q.pool.firstFailure?.map (.workersFailed report.failed),
    (errorOf (sentinelAt s db q)).map .store]

/-- What a run with its report returns: the first of the errors that apply. -/
def firstOf (report : Report) : List (Option RunError) → Outcome
  | [] => .finished report
  | some e :: _ => .failed e
  | none :: errors => firstOf report errors

/-- What a run returns, told from the moment at which it looks for the sentinel key. -/
def result (s : Setting σ) (db : Database σ) (q : Run σ) : Outcome :=
  match reportAt s db q with
  | .error o => .broken (.overflow o)
  | .ok report => firstOf report (errors s db q report)

section Errors

variable {s : Setting σ} {db : Database σ} {q : Run σ} {report : Report}

@[simp] lemma errorOf_error {ε α : Type} (e : ε) : errorOf (.error e : Except ε α) = some e := rfl

@[simp] lemma errorOf_ok {ε α : Type} (a : α) : errorOf (.ok a : Except ε α) = none := rfl

lemma errorOf_eq_none_iff {ε α : Type} {a : Except ε α} : errorOf a = none ↔ ∃ x, a = .ok x := by
  cases a <;> simp

lemma errorOf_unit_eq_none_iff {ε : Type} {a : Except ε Unit} : errorOf a = none ↔ a = .ok () := by
  cases a <;> simp

@[simp] lemma firstOf_nil (report : Report) : firstOf report [] = .finished report := rfl

@[simp] lemma firstOf_some (report : Report) (e : RunError) (errors : List (Option RunError)) :
    firstOf report (some e :: errors) = .failed e := rfl

@[simp] lemma firstOf_none (report : Report) (errors : List (Option RunError)) :
    firstOf report (none :: errors) = firstOf report errors := rfl

lemma firstOf_eq_finished_iff {t : Report} {errors : List (Option RunError)} :
    firstOf report errors = .finished t ↔ report = t ∧ ∀ e ∈ errors, e = none := by
  induction errors with
  | nil => simp
  | cons e errors ih => cases e <;> simp [ih]

lemma mem_of_firstOf {e : RunError} {errors : List (Option RunError)}
    (h : firstOf report errors = .failed e) : some e ∈ errors := by
  induction errors with
  | nil => cases h
  | cons e' errors ih =>
      cases e' with
      | none => exact List.mem_cons_of_mem _ (ih h)
      | some e' =>
          cases h
          exact List.mem_cons_self

/-- The report and the result of a run speak of the same failures. -/
lemma firstFailure?_of_report (hover : q.pool.isOver = true) (h : reportAt s db q = .ok report) :
    (Report.failuresOf (q.pool.reports?.getD [])).head? = q.pool.firstFailure? ∧
      (Report.failuresOf (q.pool.reports?.getD [])).length = report.failed ∧
      report.failures.head? = q.pool.firstFailure?.map WorkerError.message := by
  obtain ⟨rs, hrs⟩ := Pool.exists_reports hover
  obtain ⟨hfailures, hfailed⟩ := Report.failures_of_accounts h
  rw [accounts] at hfailures hfailed
  rw [Pool.firstFailure?_eq hrs, hfailures, hfailed, List.head?_map]
  dsimp only
  rw [hrs]
  exact ⟨rfl, rfl, rfl⟩

/-- A report without a text is one of a run in which no worker has failed. -/
lemma isEmpty_failures_iff (hover : q.pool.isOver = true) (h : reportAt s db q = .ok report) :
    report.failures.isEmpty = true ↔ q.pool.firstFailure? = none := by
  have hhead := (firstFailure?_of_report hover h).2.2
  rw [List.isEmpty_iff, ← List.head?_eq_none_iff, hhead, Option.map_eq_none_iff]

/-- Whoever gets as far as closing the connection has the workers' failures and the sentinel's error
left. -/
lemma verdict_eq (hover : q.pool.isOver = true) (h : reportAt s db q = .ok report) :
    verdict (Report.failuresOf (q.pool.reports?.getD [])) (sentinelAt s db q) report =
      firstOf report [q.pool.firstFailure?.map (.workersFailed report.failed),
        (errorOf (sentinelAt s db q)).map .store] := by
  obtain ⟨hhead, hlength, -⟩ := firstFailure?_of_report hover h
  rw [← hhead, ← hlength]
  cases Report.failuresOf (q.pool.reports?.getD []) with
  | nil => cases hsentinel : sentinelAt s db q <;> simp [verdict]
  | cons first rest => simp [verdict]

/-- A run in which every step succeeded and no worker failed. -/
structure Flawless (s : Setting σ) (db : Database σ) (q : Run σ) (report : Report) : Prop where
  counted : reportAt s db q = .ok report
  reported : ∃ text, s.reporter report = .ok text
  heard : s.config.waitForAck = true → acknowledge s.input = .ok ()
  closed : closingAt s db q = .ok ()
  workers : q.pool.firstFailure? = none
  sentinel : ∃ present, sentinelAt s db q = .ok present

lemma flawless_iff :
    Flawless s db q report ↔
      reportAt s db q = .ok report ∧ ∀ e ∈ errors s db q report, e = none := by
  have herrors : (∀ e ∈ errors s db q report, e = none) ↔
      (∃ text, s.reporter report = .ok text) ∧ unheard? s q = none ∧
        closingAt s db q = .ok () ∧ q.pool.firstFailure? = none ∧
        ∃ present, sentinelAt s db q = .ok present := by
    simp only [errors, List.forall_mem_cons, Option.map_eq_none_iff, errorOf_unit_eq_none_iff]
    simp [errorOf_eq_none_iff]
  have heard (hworkers : q.pool.firstFailure? = none) : unheard? s q = none ↔
      (s.config.waitForAck = true → acknowledge s.input = .ok ()) := by
    rw [unheard?]
    split
    · rename_i hwait
      simp [errorOf_unit_eq_none_iff, hwait.1]
    · rename_i hwait
      exact iff_of_true rfl fun h => absurd ⟨h, hworkers⟩ hwait
  rw [herrors]
  constructor
  · rintro ⟨hcounted, hreported, hheard, hclosed, hworkers, hsentinel⟩
    exact ⟨hcounted, hreported, (heard hworkers).mpr hheard, hclosed, hworkers, hsentinel⟩
  · rintro ⟨hcounted, hreported, hheard, hclosed, hworkers, hsentinel⟩
    exact ⟨hcounted, hreported, (heard hworkers).mp hheard, hclosed, hworkers, hsentinel⟩

/-- A run finishes exactly if every step succeeded and no worker failed. -/
lemma result_eq_finished_iff : result s db q = .finished report ↔ Flawless s db q report := by
  rw [flawless_iff, result]
  cases reportAt s db q with
  | error o => simp
  | ok t =>
      simp only [firstOf_eq_finished_iff, Except.ok.injEq]
      exact and_congr_right fun h => h ▸ Iff.rfl

/-- Where the result tells of failed workers, it tells what the report tells. -/
lemma workersFailed_of_result (hover : q.pool.isOver = true) {n : ℕ} {first : WorkerError}
    (h : result s db q = .failed (.workersFailed n first)) :
    ∃ report, reportAt s db q = .ok report ∧ n = report.failed ∧
      q.pool.firstFailure? = some first ∧ report.failures.head? = some first.message := by
  rw [result] at h
  cases hreport : reportAt s db q with
  | error o =>
      rw [hreport] at h
      cases h
  | ok report =>
      rw [hreport] at h
      have hmem : some (.workersFailed n first) ∈ errors s db q report := mem_of_firstOf h
      obtain ⟨hfirst, hfailed⟩ : q.pool.firstFailure? = some first ∧ report.failed = n := by
        simpa [errors] using hmem
      refine ⟨report, rfl, hfailed.symm, hfirst, ?_⟩
      rw [(firstFailure?_of_report hover hreport).2.2, hfirst]
      rfl

end Errors

/-! ### From the look on -/

/-- What is kept from the look to the end of a run with a report. -/
structure Kept (s : Setting σ) (db : Database σ) (q r : Run σ)
    (sentinel : Except StoreError Bool) (report : Report) : Prop where
  sentinel : sentinel = sentinelAt s db q
  report : reportAt s db q = .ok report
  store : r.pool.store = (db.keyExists s.config.sentinelKey q.pool.store).2

/-- How a run stands after its look: in each phase nothing has gone wrong before. -/
def Afterwards (s : Setting σ) (db : Database σ) (q r : Run σ) : Prop :=
  match r.phase with
  | .reporting sentinel report => Kept s db q r sentinel report
  | .acknowledging sentinel report =>
    Kept s db q r sentinel report ∧ .reported report ∈ r.trail ∧
      errorOf (s.reporter report) = none ∧ s.config.waitForAck ∧ q.pool.firstFailure? = none
  | .closing sentinel report =>
    Kept s db q r sentinel report ∧ .reported report ∈ r.trail ∧
      errorOf (s.reporter report) = none ∧ unheard? s q = none
  | .ended o =>
    o = result s db q ∧ ∀ report, reportAt s db q = .ok report → .reported report ∈ r.trail
  | _ => False

/-- The invariant of a run after its look: its workers are those of that moment. -/
structure After (s : Setting σ) (db : Database σ) (q r : Run σ) : Prop where
  isOver : q.pool.isOver = true
  workers : r.pool.workers = q.pool.workers
  standing : Afterwards s db q r

section After

variable {s : Setting σ} {db : Database σ} {q r r' : Run σ} {e : Event}

/-- What happens besides the moves of a run whose workers are gone leaves its workers and its store
alone. -/
structure Quiet (r r' : Run σ) : Prop where
  phase : r'.phase = r.phase
  trail : r'.trail = r.trail
  workers : r'.pool.workers = r.pool.workers
  store : r'.pool.store = r.pool.store

/-- Once its workers are gone a run is changed by its own moves only. -/
lemma Stepped.quiet (hs : Stepped s r e r') (hover : r.pool.isOver = true) :
    Advanced s r r' ∨ Quiet r r' := by
  have hpool (db : Database σ) (e : Pool.Event) :
      Quiet r { r with pool := r.pool.step db e } :=
    have hkept := (Pool.stepped db r.pool e).of_isOver hover
    ⟨rfl, rfl, hkept.1, hkept.2⟩
  cases hs with
  | control hs => exact .inl hs
  | turn hdb => exact .inr (hpool _ _)
  | interrupt hdb => exact .inr (hpool _ _)
  | link i => exact .inr ⟨rfl, rfl, rfl, rfl⟩
  | @ring due limit ha hl hdue =>
      exact .inr ⟨rfl, rfl, Pool.requestShutdown_workers (r.pool.note (.deadlineReached limit)),
        Pool.requestShutdown_store (r.pool.note (.deadlineReached limit))⟩
  | cancel =>
      exact .inr ⟨rfl, rfl, Pool.requestShutdown_workers _, Pool.requestShutdown_store _⟩
  | tick d => exact .inr ⟨rfl, rfl, rfl, rfl⟩
  | idle => exact .inr ⟨rfl, rfl, rfl, rfl⟩

lemma Kept.of_store {sentinel : Except StoreError Bool} {report : Report}
    (h : Kept s db q r sentinel report) (hstore : r'.pool.store = r.pool.store) :
    Kept s db q r' sentinel report :=
  ⟨h.sentinel, h.report, hstore.trans h.store⟩

lemma After.quiet (h : After s db q r) (hq : Quiet r r') : After s db q r' := by
  refine ⟨h.isOver, hq.workers.trans h.workers, ?_⟩
  have hstanding := h.standing
  rw [Afterwards] at hstanding ⊢
  rw [hq.phase, hq.trail]
  cases hp : r.phase with
  | reporting sentinel report =>
      rw [hp] at hstanding
      exact hstanding.of_store hq.store
  | acknowledging sentinel report =>
      rw [hp] at hstanding
      exact ⟨hstanding.1.of_store hq.store, hstanding.2⟩
  | closing sentinel report =>
      rw [hp] at hstanding
      exact ⟨hstanding.1.of_store hq.store, hstanding.2⟩
  | _ =>
      rw [hp] at hstanding
      exact hstanding

/-- A run with its report ends with the first of the errors that apply, once it is in its trail. -/
lemma After.ended {o : Outcome} (hover : q.pool.isOver = true)
    (hworkers : r.pool.workers = q.pool.workers) (hp : r.phase = .ended o) {report : Report}
    (hreport : reportAt s db q = .ok report) (hmem : .reported report ∈ r.trail)
    (ho : o = firstOf report (errors s db q report)) : After s db q r := by
  refine ⟨hover, hworkers, ?_⟩
  rw [Afterwards, hp]
  refine ⟨by rw [ho, result, hreport], fun t ht => ?_⟩
  rw [hreport] at ht
  rwa [← Except.ok.inj ht]

/-- The report goes out. -/
lemma After.reported {sentinel : Except StoreError Bool} {report : Report} {text : String}
    (hover : q.pool.isOver = true) (hworkers : r.pool.workers = q.pool.workers)
    (h : Kept s db q r sentinel report) (ht : s.reporter report = .ok text) :
    After s db q ((r.putText report text).goTo
      (if s.config.waitForAck && report.failures.isEmpty then .acknowledging sentinel report
        else .closing sentinel report)) := by
  have hempty := isEmpty_failures_iff hover h.report
  have hmem : .reported report ∈ (r.putText report text).trail :=
    (mem_putText_trail r report text).mpr (.inr (.inl rfl))
  have hkept (p : Phase) : Kept s db q ((r.putText report text).goTo p) sentinel report :=
    h.of_store (by rw [putText_goTo_pool])
  refine ⟨hover, by rw [putText_goTo_pool]; exact hworkers, ?_⟩
  -- the run waits for the operator exactly where the list of errors looks at the input
  by_cases hwait : (s.config.waitForAck && report.failures.isEmpty) = true
  · rw [if_pos hwait]
    rw [Bool.and_eq_true, hempty] at hwait
    exact ⟨hkept _, hmem, errorOf_eq_none_iff.mpr ⟨text, ht⟩, hwait⟩
  · rw [if_neg hwait]
    rw [Bool.and_eq_true, hempty] at hwait
    exact ⟨hkept _, hmem, errorOf_eq_none_iff.mpr ⟨text, ht⟩, by rw [unheard?, if_neg hwait]⟩

/-- The moves of a run after its look. -/
lemma After.advanced (h : After s db q r) (hs : Advanced s r r') : After s db q r' := by
  obtain ⟨hover, hworkers, hstanding⟩ := h
  rw [Afterwards] at hstanding
  cases hs with
  | @unreported sentinel report f hp hf =>
      rw [hp] at hstanding
      refine .ended (o := .failed (.io f)) hover hworkers rfl hstanding.report List.mem_cons_self ?_
      simp [errors, hf]
  | reported hp ht =>
      rw [hp] at hstanding
      exact .reported hover hworkers hstanding ht
  | @unacknowledged sentinel report f hp hf =>
      rw [hp] at hstanding
      obtain ⟨hkept, hmem, hreporter, hwait⟩ := hstanding
      refine .ended (o := .failed (.io f)) hover hworkers rfl hkept.report
        (List.mem_cons_of_mem _ (List.mem_cons_of_mem _ hmem)) ?_
      simp [errors, hreporter, unheard?, hwait, hf]
  | @acknowledged sentinel report hp hf =>
      rw [hp] at hstanding
      obtain ⟨hkept, hmem, hreporter, hwait⟩ := hstanding
      refine ⟨hover, hworkers, hkept.of_store rfl,
        List.mem_cons_of_mem _ (List.mem_cons_of_mem _ hmem), hreporter, ?_⟩
      rw [unheard?, if_pos hwait, hf]
      rfl
  | @unclosed sentinel report e hp hc =>
      rw [hp] at hstanding
      obtain ⟨hkept, hmem, hreporter, hheard⟩ := hstanding
      rw [hkept.store] at hc
      refine .ended (o := .failed (.store e)) hover hworkers rfl hkept.report
        (List.mem_cons_of_mem _ hmem) ?_
      simp [errors, hreporter, hheard, closingAt, hc]
  | @closed sentinel report hp hc =>
      rw [hp] at hstanding
      obtain ⟨hkept, hmem, hreporter, hheard⟩ := hstanding
      rw [hkept.store] at hc
      -- the verdict is told from the reports of now, the errors from those at the look
      have hreports : r.pool.reports? = q.pool.reports? := by
        rw [Pool.reports?, hworkers, Pool.reports?]
      refine .ended hover hworkers rfl hkept.report (List.mem_cons_of_mem _ hmem) ?_
      rw [hreports, hkept.sentinel, verdict_eq hover hkept.report]
      simp [errors, hreporter, hheard, closingAt, hc]
  -- the moves up to the look are over
  | refused hp | crowded hp | launch hp | release hp | gathered hp | retired hp
  | overflowed hp | looked hp =>
      rw [hp] at hstanding
      exact hstanding.elim

/-- **Every event keeps to what has been settled at the look.** -/
theorem After.stepped (h : After s db q r) (hs : Stepped s r e r') : After s db q r' := by
  have hover : r.pool.isOver = true := by
    rw [Pool.isOver, h.workers]
    exact h.isOver
  rcases hs.quiet hover with hs | hq
  · exact h.advanced hs
  · exact h.quiet hq

/-- The look itself settles it. -/
lemma After.lookUp (hover : q.pool.isOver = true) : After s db q (q.lookUp s db) := by
  rw [lookUp_eq]
  split
  · rename_i o ho
    refine ⟨hover, looked_workers s q db, ?_, fun report hreport => ?_⟩
    · rw [result, reportAt, sentinelAt, ho]
    · rw [reportAt, sentinelAt, ho] at hreport
      cases hreport
  · rename_i report ho
    exact ⟨hover, looked_workers s q db, rfl, ho, looked_store s q db⟩

end After

/-! ### Up to the look -/

/-- A run that has started neither chains nor workers. -/
structure Unlaunched (r : Run σ) : Prop where
  database : r.database = none
  workers : r.pool.workers = #[]
  pressure : r.pressure = Pressure.start 0

/-- How a run stands before its look. -/
def Early (s : Setting σ) (store : σ) (r : Run σ) : Prop :=
  match r.phase with
  | .selecting => Unlaunched r ∧ r.pool.store = store
  | .launched | .gathering | .retiring | .checking => True
  | .ended o =>
    Unlaunched r ∧
      ((∃ e, s.connection.database s.config.database store = .error e ∧
          o = .failed (.store e)) ∨
        ∃ db b, s.connection.database s.config.database store = .ok db ∧ crowding? s = some b ∧
          o = .broken b)
  | _ => False

/-- The invariant of a run from its beginning: its database is the one of the connection, and until
it looks for the sentinel key it ends only with nothing started. -/
structure Rooted (s : Setting σ) (store : σ) (r : Run σ) : Prop where
  database : ∀ db, r.database = some db →
    s.connection.database s.config.database store = .ok db ∧ crowding? s = none
  early : (∃ now, .lookedUp s.config.sentinelKey now ∈ r.deeds) ∨ Early s store r

section Rooted

variable {s : Setting σ} {store : σ} {r r' : Run σ} {e : Event}

lemma Early.of_eq (h : Early s store r) (hphase : r'.phase = r.phase)
    (hdb : r'.database = r.database) (hworkers : r'.pool.workers = r.pool.workers)
    (hstore : r'.pool.store = r.pool.store) (hpressure : r'.pressure = r.pressure) :
    Early s store r' := by
  have hunlaunched (hr : Unlaunched r) : Unlaunched r' :=
    ⟨hdb.trans hr.database, hworkers.trans hr.workers, hpressure.trans hr.pressure⟩
  rw [Early] at h ⊢
  rw [hphase]
  cases hp : r.phase with
  | selecting =>
      rw [hp] at h
      exact ⟨hunlaunched h.1, hstore.trans h.2⟩
  | ended o =>
      rw [hp] at h
      exact ⟨hunlaunched h.1, h.2⟩
  | _ =>
      rw [hp] at h
      exact h

/-- The chains and workers have nothing to say before they are started. -/
lemma Early.launched (h : Early s store r) (hphase : r'.phase = r.phase)
    (hlaunched : ¬ Unlaunched r) : Early s store r' := by
  rw [Early] at h ⊢
  rw [hphase]
  cases hp : r.phase with
  | selecting =>
      rw [hp] at h
      exact absurd h.1 hlaunched
  | ended o =>
      rw [hp] at h
      exact absurd h.1 hlaunched
  | _ =>
      rw [hp] at h
      exact h

lemma Rooted.of_eq (h : Rooted s store r) (hdb : r'.database = r.database)
    (htrail : r'.trail = r.trail) (hearly : Early s store r → Early s store r') :
    Rooted s store r' := by
  refine ⟨fun db => by rw [hdb]; exact h.database db, ?_⟩
  rw [deeds_of_eq htrail]
  exact h.early.imp_right hearly

/-- A look that a run has behind it stays behind it. -/
lemma Rooted.of_looked (h : Rooted s store r) (hdb : r'.database = r.database)
    (hlooked : ∃ now, .lookedUp s.config.sentinelKey now ∈ r'.deeds) : Rooted s store r' :=
  ⟨fun db => by rw [hdb]; exact h.database db, .inl hlooked⟩

/-- The look itself is from then on behind the run. -/
lemma Rooted.lookedUp (h : Rooted s store r) {db : Database σ}
    (hdb : r'.database = (r.looked s db).database) (htrail : r'.trail = (r.looked s db).trail) :
    Rooted s store r' := by
  refine h.of_looked (hdb.trans (looked_database s r db)) ⟨r.pool.now, ?_⟩
  rw [deeds_of_eq htrail, looked_deeds]
  exact List.mem_append_right _ List.mem_cons_self

/-- The moves of a run from its beginning. -/
lemma Rooted.advanced (h : Rooted s store r) (hcourse : Course s r) (hs : Advanced s r r') :
    Rooted s store r' := by
  -- at its selection a run has not looked, and after its look it is late
  have hselecting (hp : r.phase = .selecting) : Unlaunched r ∧ r.pool.store = store := by
    have hearly : Early s store r := by
      refine h.early.resolve_left ?_
      rintro ⟨now, hnow⟩
      rw [Course, hp] at hcourse
      rw [hcourse.2] at hnow
      cases hnow
    rw [Early, hp] at hearly
    exact hearly
  have hlooked {more : List Deed} (hnot : ¬ Early s store r) (hdeeds : r'.deeds = r.deeds ++ more) :
      ∃ now, .lookedUp s.config.sentinelKey now ∈ r'.deeds := by
    obtain ⟨now, hnow⟩ := h.early.resolve_right hnot
    exact ⟨now, by rw [hdeeds]; exact List.mem_append_left more hnow⟩
  cases hs with
  | refused hp hdb =>
      obtain ⟨hunlaunched, hstore⟩ := hselecting hp
      rw [hstore] at hdb
      exact ⟨h.database, .inr ⟨⟨hunlaunched.1, hunlaunched.2, hunlaunched.3⟩, .inl ⟨_, hdb, rfl⟩⟩⟩
  | crowded hp hdb hb =>
      obtain ⟨hunlaunched, hstore⟩ := hselecting hp
      rw [hstore] at hdb
      exact ⟨h.database,
        .inr ⟨⟨hunlaunched.1, hunlaunched.2, hunlaunched.3⟩, .inr ⟨_, _, hdb, hb, rfl⟩⟩⟩
  | launch hp hdb hb =>
      rw [(hselecting hp).2] at hdb
      refine ⟨fun db hsome => ?_, .inr trivial⟩
      cases hsome
      exact ⟨hdb, hb⟩
  | release hp => exact h.of_eq rfl rfl fun _ => trivial
  | gathered hp hover => exact h.of_eq rfl rfl fun _ => trivial
  | retired hp hover => exact h.of_eq rfl rfl fun _ => trivial
  | @overflowed db o hp hdb ho => exact h.lookedUp rfl rfl
  | @looked db report hp hdb ho => exact h.lookedUp rfl rfl
  -- the phases after the look are none of an early run
  | unreported hp hf =>
      exact h.of_looked rfl (hlooked (by rw [Early, hp]; exact id) (deeds_of_mark rfl rfl))
  | @reported sentinel report text hp ht =>
      exact h.of_looked (putText_database r report text)
        (hlooked (by rw [Early, hp]; exact id) (putText_deeds r report text))
  | unacknowledged hp hf =>
      exact h.of_looked rfl (hlooked (by rw [Early, hp]; exact id) (deeds_of_awaited rfl))
  | acknowledged hp hf =>
      exact h.of_looked rfl (hlooked (by rw [Early, hp]; exact id) (deeds_of_awaited rfl))
  | unclosed hp hc =>
      exact h.of_looked rfl (hlooked (by rw [Early, hp]; exact id) (deeds_of_mark rfl rfl))
  | closed hp hc =>
      exact h.of_looked rfl (hlooked (by rw [Early, hp]; exact id) (deeds_of_mark rfl rfl))

/-- **Every event keeps to the beginning.** -/
theorem Rooted.stepped (h : Rooted s store r) (hcourse : Course s r) (hs : Stepped s r e r') :
    Rooted s store r' := by
  have hpool {db : Database σ} (hdb : r.database = some db) (e : Pool.Event) :
      Rooted s store { r with pool := r.pool.step db e } :=
    h.of_eq rfl rfl fun hearly => hearly.launched rfl fun hunlaunched => by
      rw [hunlaunched.database] at hdb
      cases hdb
  cases hs with
  | control hs => exact h.advanced hcourse hs
  | turn hdb => exact hpool hdb _
  | interrupt hdb => exact hpool hdb _
  | link i =>
      refine h.of_eq rfl rfl fun hearly => ?_
      by_cases hunlaunched : Unlaunched r
      · refine hearly.of_eq rfl rfl rfl rfl ?_
        dsimp only
        rw [hunlaunched.pressure, Pressure.step, show (Pressure.start 0).links[i]? = none by
          simp [Pressure.start]]
      · exact hearly.launched rfl hunlaunched
  | @ring due limit ha hl hdue =>
      exact h.of_eq rfl rfl fun hearly => hearly.of_eq rfl rfl
        (Pool.requestShutdown_workers (r.pool.note (.deadlineReached limit)))
        (Pool.requestShutdown_store (r.pool.note (.deadlineReached limit))) rfl
  | cancel =>
      exact h.of_eq rfl rfl fun hearly => hearly.of_eq rfl rfl
        (Pool.requestShutdown_workers r.pool) (Pool.requestShutdown_store r.pool) rfl
  | tick d => exact h.of_eq rfl rfl fun hearly => hearly.of_eq rfl rfl rfl rfl rfl
  | idle => exact h

lemma Rooted.begin (s : Setting σ) (store : σ) : Rooted s store (begin s store) :=
  ⟨fun _ hdb => absurd hdb (by simp [Run.begin]), .inr ⟨⟨rfl, rfl, rfl⟩, rfl⟩⟩

end Rooted

/-! ### The run as a whole -/

/-- What there is in the result of a run that looked for the sentinel key at the given moment. -/
structure Verdict (s : Setting σ) (db : Database σ) (q : Run σ) (o : Outcome) : Prop where
  /-- It is the first of the errors that apply, else the report; or there is no report because what
  the workers have counted is out of range. -/
  eq : o = result s db q
  finished : ∀ report, o = .finished report ↔ Flawless s db q report
  workersFailed : ∀ n first, o = .failed (.workersFailed n first) →
    ∃ report, reportAt s db q = .ok report ∧ n = report.failed ∧
      q.pool.firstFailure? = some first ∧ report.failures.head? = some first.message

/-- What a run returns at an open connection. -/
inductive Returned (s : Setting σ) (store : σ) (events : List Event) : Outcome → Prop where
  /-- There is no database of the index asked for: nothing was started. -/
  | refused {e : StoreError}
      (hdb : s.connection.database s.config.database store = .error e)
      (hunlaunched : Unlaunched ((begin s store).run s events)) :
      Returned s store events (.failed (.store e))
  /-- There is no room for the chains or the workers: nothing was started. -/
  | crowded {db : Database σ} {b : Breakdown}
      (hdb : s.connection.database s.config.database store = .ok db)
      (hb : crowding? s = some b) (hunlaunched : Unlaunched ((begin s store).run s events)) :
      Returned s store events (.broken b)
  /-- The run has looked for the sentinel key, and its report, if there is one, was put out. -/
  | looked {db : Database σ} {before after : List Event} {o : Outcome}
      (hdb : s.connection.database s.config.database store = .ok db)
      (hb : crowding? s = none) (hevents : events = before ++ .control :: after)
      (hlooks : Looks s db ((begin s store).run s before))
      (hreported : ∀ report, reportAt s db ((begin s store).run s before) = .ok report →
        .reported report ∈ ((begin s store).run s events).deeds)
      (hverdict : Verdict s db ((begin s store).run s before) o) :
      Returned s store events o

section Whole

variable {s : Setting σ} {store : σ} {events : List Event}

/-- From its look on a run keeps to what has been settled there. -/
lemma run_after {before after : List Event} {db : Database σ}
    (hlooks : Looks s db ((begin s store).run s before)) :
    After s db ((begin s store).run s before)
      ((begin s store).run s (before ++ .control :: after)) := by
  have hrun : (begin s store).run s (before ++ .control :: after) =
      (((begin s store).run s before).lookUp s db).run s after := by
    rw [run_append, run_cons, hlooks.control]
  rw [hrun]
  exact run_induction (fun h hs => h.stepped hs) (.lookUp hlooks.gone.isOver) after

lemma returned_of_outcome {o : Outcome}
    (ho : ((begin s store).run s events).outcome? = some o) : Returned s store events o := by
  have hrooted (events : List Event) : Rooted s store ((begin s store).run s events) :=
    (run_induction (P := fun r => Rooted s store r ∧ Course s r)
      (fun h hs => ⟨h.1.stepped h.2 hs, h.2.stepped hs⟩)
      ⟨.begin s store, Course.begin s store⟩ events).1
  have hp : ((begin s store).run s events).phase = .ended o := by
    rw [outcome?] at ho
    split at ho
    · rename_i o' hp
      rw [hp, Option.some.inj ho]
    · cases ho
  rcases (hrooted events).early with ⟨now, hnow⟩ | hearly
  · obtain ⟨before, after, db, rfl, hlooks, -⟩ := exists_look hnow
    have hdb := (hrooted before).database db hlooks.database
    have hafter : After s db ((begin s store).run s before)
        ((begin s store).run s (before ++ .control :: after)) := run_after hlooks
    have hstanding := hafter.standing
    rw [Afterwards, hp] at hstanding
    obtain ⟨rfl, hreported⟩ := hstanding
    exact .looked hdb.1 hdb.2 rfl hlooks
      (fun report hreport => (mem_deeds rfl).mpr (hreported report hreport))
      ⟨rfl, fun report => result_eq_finished_iff,
        fun n first h => workersFailed_of_result hlooks.gone.isOver h⟩
  · rw [Early, hp] at hearly
    obtain ⟨hunlaunched, ⟨e, hdb, rfl⟩ | ⟨db, b, hdb, hb, rfl⟩⟩ := hearly
    · exact .refused hdb hunlaunched
    · exact .crowded hdb hb hunlaunched

/-- **What a run returns.** Where its connection cannot be opened a run returns that error and does
nothing else. At an open connection it returns the first of the errors that apply, and its report
only where every step succeeded and no worker failed; it breaks down exactly where there is no room
for its chains or workers, or for what the workers have counted. From wherever it stands it can be
brought to its end. -/
theorem returns (s : Setting σ) (o : Opening σ) (events : List Event) :
    let record := Record.ofOpening s o fun r => r.run s events
    match o.store with
    | .error e =>
      record.outcome = some (.failed (.store e)) ∧ record.workers = #[] ∧
        record.deeds = [.opened o.address o.options]
    | .ok store =>
      (∀ outcome, record.outcome = some outcome → Returned s store events outcome) ∧
        ∃ more, (∀ e ∈ more, e ≠ .cancel) ∧
          (Record.ofOpening s o fun r => r.run s (events ++ more)).outcome ≠ none := by
  intro record
  cases hopen : o.store with
  | error e =>
      have hrecord : record = Record.ofOpening s o fun r => r.run s events := rfl
      rw [Record.ofOpening, hopen] at hrecord
      rw [hrecord]
      exact ⟨rfl, rfl, rfl⟩
  | ok store =>
      have houtcome (events : List Event) :
          (Record.ofOpening s o fun r => r.run s events).outcome =
            ((begin s store).run s events).outcome? := by
        rw [Record.ofOpening, hopen]
        rfl
      obtain ⟨more, hmore, outcome, hended⟩ := exists_outcome s store events
      refine ⟨fun outcome h => returned_of_outcome ((houtcome events).symm.trans h),
        more, hmore, ?_⟩
      rw [houtcome, hended]
      exact Option.some_ne_none outcome

/-- One of two workers fails, the sentinel key cannot be looked for and the connection cannot be
closed: the last of these masks the others. Where the connection can be closed the failed worker
masks the sentinel key. -/
theorem returns_at_masked_failure :
    let lost : StoreError := .operation "lost"
    let gone : StoreError := .connection "gone"
    let db : Database Unit :=
      { set := fun c _ _ _ u => (if c.worker = 1 then .failed lost else .answered none, u)
        execute := fun _ _ u => (.answered true, u)
        keyExists := fun _ u => (.error lost, u) }
    let setting (closing : Except StoreError Unit) : Setting Unit :=
      { config := { workers := 2, maxIterations := 2, chains := .fixed 0 }
        processors := 1
        entropy := fun _ => ⟨Key.ofSeed 0, 0, [0]⟩
        connection := { database := fun _ _ => .ok db, close := fun u => (closing, u) }
        reporter := fun _ => .ok "report"
        input := [] }
    let o : Opening Unit := ⟨"", .default, .ok (), []⟩
    let events : List Event := List.flatten
      [List.replicate 2 .control, List.replicate 6 (.turn 1), List.replicate 6 (.turn 0),
        List.replicate 5 .control]
    let record (closing : Except StoreError Unit) : Record :=
      Record.ofOpening (setting closing) o fun r => r.run (setting closing) events
    let failed : Outcome := .failed (.workersFailed 1 (.store 1 1 .direct lost))
    ((record (.error gone)).outcome = some (.failed (.store gone)) ∧
      Returned (setting (.error gone)) () events (.failed (.store gone))) ∧
    (record (.ok ())).outcome = some failed ∧ Returned (setting (.ok ())) () events failed := by
  intro lost gone db setting o events record failed
  have hgone : (record (.error gone)).outcome = some (.failed (.store gone)) := by decide +kernel
  have hfailed : (record (.ok ())).outcome = some failed := by decide +kernel
  exact ⟨⟨hgone, (returns (setting (.error gone)) o events).1 _ hgone⟩, hfailed,
    (returns (setting (.ok ())) o events).1 _ hfailed⟩

/-- A run with more workers than there is room for returns neither a report nor an error, though
nothing is wrong with its connection, its reporter or its operator. -/
theorem broken_without_error :
    let s : Setting Memory :=
      { config :=
          { workers := 1152921504606846976, maxIterations := 1, chains := .fixed 0
            waitForAck := false }
        processors := 1
        entropy := fun _ => Generator.ofSeed 0
        connection := Memory.connection
        reporter := fun _ => .ok ""
        input := [] }
    let record := Record.ofOpening s (Memory.openAt "" .default) fun r => r.run s [.control]
    (∃ db, s.connection.database s.config.database Memory.fresh = .ok db) ∧
      record.outcome = some (.broken .tooManyWorkers) ∧
      (∀ e, record.outcome ≠ some (.failed e)) ∧
      ∀ report, record.outcome ≠ some (.finished report) := by
  intro s record
  have hbroken : record.outcome = some (.broken .tooManyWorkers) := by decide +kernel
  refine ⟨⟨_, rfl⟩, hbroken, ?_, ?_⟩ <;> simp [hbroken]

end Whole

end Run

end StoreSoak
