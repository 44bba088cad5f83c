import StoreSoak.Proofs.Pool.Accounts
import StoreSoak.Proofs.Run.Progress

/-!
Runs at the store inside the process whose outcome is known beforehand.

Without a cancellation and a deadline, and where no failing worker stops the others, the order in
which the workers make their calls makes no difference: the outcome and the report of a run follow
from its setting and from what the store holds at first, but for times and for the work of the
chains.

* `forecast` is the report, and `sequel` the outcome that follows from a report.
* `OnCourse`: the invariant of such a run, phase by phase; `OnCourse.stepped` says that every event
  keeps it.
* `outcome_foretold`: every such run can be brought to its end, and however it came there its
  outcome is as foretold.
-/

namespace StoreSoak

/-- The chains stay the same while their links go on. -/
lemma Pressure.chains_step (p : Pressure) (shutdown : Bool) (i : ℕ) :
    (p.step shutdown i).1.chains = p.chains := by
  rw [step]
  split
  · rfl
  · split
    · rfl
    · exact Array.size_modify
    · split <;> rfl

namespace Run

/-- The report of a run that nobody stops, at a database that holds the given keys at first. Times,
and the links of the chains, are left out. -/
def forecast {σ : Type} (s : Setting σ) (initial : Keyspace) : Report :=
  let plan := s.config.plan
  let counts := plan.together (plan.refuses initial) s.config.workers (plan.generator s.entropy)
  { workers := s.config.workers
    completed := if plan.HeldUp (plan.refuses initial) then 0 else s.config.workers
    cancelled := 0
    failed := if plan.HeldUp (plan.refuses initial) then s.config.workers else 0
    iterations := counts.iterations
    transactional := counts.transactional
    direct := counts.direct
    highPriority := counts.highPriority
    highPriorityRatio := Ratio.ofCounts counts.highPriority counts.iterations
    abortedTransactions := counts.aborted
    throttlePauses := counts.pauses
    averageLatency := Duration.zero
    maxLatency := Duration.zero
    elapsed := Duration.zero
    pressureChains := chainCount s
    pressureExecutions := 0
    sentinelKey := s.config.sentinelKey
    sentinelExists := some (initial.contains s.config.sentinelKey ||
      decide (s.config.sentinelKey = s.config.sharedKey ∧ 0 < s.config.workers ∧ 0 < plan.last))
    failures :=
      if plan.HeldUp (plan.refuses initial) then
        (List.range s.config.workers).map fun i => (WorkerError.guarded i 2).message
      else [] }

/-- A report is as foretold, but for times and the links of the chains. -/
def Foretold {σ : Type} (s : Setting σ) (initial : Keyspace) (report : Report) : Prop :=
  report = { forecast s initial with
    averageLatency := report.averageLatency
    maxLatency := report.maxLatency
    elapsed := report.elapsed
    pressureExecutions := report.pressureExecutions }

/-- The outcome of a run with the given report, where nobody was stopped: the report, unless it does
not go out, the operator is waited for and not heard, or workers were held up. -/
def sequel {σ : Type} (s : Setting σ) (report : Report) : Outcome :=
  match s.reporter report with
  | .error f => .failed (.io f)
  | .ok _ =>
    match if s.config.waitForAck && report.failures.isEmpty then acknowledge s.input else .ok () with
    | .error f => .failed (.io f)
    | .ok () =>
      if report.failed = 0 then .finished report
      else .failed (.workersFailed report.failed (.guarded 0 2))

/-- The outcome of a run as foretold: it breaks down where there is no room for its chains and
workers, else the outcome follows from its report. -/
def ForetoldOutcome {σ : Type} (s : Setting σ) (initial : Keyspace) (trail : List Deed)
    (o : Outcome) : Prop :=
  match crowding? s with
  | some b => o = .broken b
  | none => ∃ report, .reported report ∈ trail ∧ Foretold s initial report ∧ o = sequel s report

variable {s : Setting Memory} {store : Memory} {l : ℕ} {r r' : Run Memory} {e : Event}

/-! ### The invariant -/

/-- A run whose workers were launched at the store inside the process. -/
structure Underway (s : Setting Memory) (store : Memory) (l : ℕ) (r : Run Memory) : Prop where
  room : crowding? s = none
  database : r.database = some (Memory.databaseOf s.config.database)
  calm : r.pool.Calm s.config.plan s.config.failurePolicy s.entropy s.config.database
    (store.keyspace s.config.database) l
  size : r.pool.workers.size = s.config.workers
  chains : r.pressure.chains = chainCount s

/-- A run that has its report. -/
structure Reported (s : Setting Memory) (store : Memory) (l : ℕ) (r : Run Memory)
    (sentinel : Except StoreError Bool) (report : Report) : Prop extends Underway s store l r where
  isOver : r.pool.isOver = true
  sentinel_ok : ∃ present, sentinel = .ok present
  foretold : Foretold s (store.keyspace s.config.database) report

/-! ### The report -/

/-- Once all workers are gone the sentinel key is there as foretold: it was there at first, or it is
the shared key and some worker has written it. -/
lemma Underway.sentinel (h : Underway s store l r) (hover : r.pool.isOver = true) :
    (r.pool.store.keyspace s.config.database).contains s.config.sentinelKey =
      ((store.keyspace s.config.database).contains s.config.sentinelKey ||
        decide (s.config.sentinelKey = s.config.sharedKey ∧ 0 < s.config.workers ∧
          0 < s.config.plan.last)) := by
  have hreach : 0 < s.config.plan.reach (s.config.plan.refuses (store.keyspace s.config.database)) ↔
      0 < s.config.plan.last := by
    rw [Plan.reach]
    split
    · rename_i hheld
      have htwo := hheld.2.2
      omega
    · rfl
  have hiterations {i : ℕ} {w : Worker} (hw : r.pool.workers[i]? = some w) :
      w.tally.totals.iterations =
        s.config.plan.reach (s.config.plan.refuses (store.keyspace s.config.database)) :=
    congrArg Totals.iterations (h.calm.over hover hw).2
  -- something was written exactly if there is a worker with an iteration to do
  have htouched : r.pool.Touched ↔ 0 < s.config.workers ∧ 0 < s.config.plan.last := by
    rw [← hreach, ← h.size]
    constructor
    · rintro ⟨i, w, hw, hpos⟩
      rw [hiterations hw] at hpos
      exact ⟨Nat.zero_lt_of_lt (Array.getElem?_eq_some_iff.mp hw).1, hpos⟩
    · rintro ⟨hsize, hpos⟩
      have hw : r.pool.workers[0]? = some r.pool.workers[0] := Array.getElem?_eq_getElem hsize
      exact ⟨0, _, hw, by rw [hiterations hw]; exact hpos⟩
  have hwritten := h.calm.written.congr htouched.symm
  -- only the shared key can have come into the store meanwhile
  by_cases hkey : s.config.sentinelKey = s.config.sharedKey
  · have hshared : s.config.sharedKey = s.config.plan.sharedKey := rfl
    by_cases hsome : 0 < s.config.workers ∧ 0 < s.config.plan.last
    · rw [Table.contains, hkey, hshared, hwritten.shared hsome, decide_eq_true ⟨rfl, hsome⟩,
        Bool.or_true]
      rfl
    · rw [Table.contains, hkey, hshared, hwritten.unwritten hsome,
        decide_eq_false fun hboth => hsome hboth.2, Bool.or_false]
      rfl
  · rw [Table.contains, hwritten.other _ hkey, decide_eq_false fun hboth => hkey hboth.1,
      Bool.or_false]
    rfl

/-- Once all workers are gone there is a report, and it is as foretold. -/
lemma Underway.report (h : Underway s store l r) (hover : r.pool.isOver = true)
    (hcount : s.config.workers * s.config.plan.last < Totals.counterLimit)
    (hl : l < Duration.limit) :
    ∃ report, Report.ofAccounts (r.accounts s (.ok
        ((r.pool.store.keyspace s.config.database).contains s.config.sentinelKey))) = .ok report ∧
      Foretold s (store.keyspace s.config.database) report := by
  rw [← h.size] at hcount
  obtain ⟨t, hmerged, htotals⟩ := h.calm.merged hover hcount hl
  obtain ⟨hlength, hcompleted, hcancelled⟩ := h.calm.completed hover
  have hfailures := h.calm.failures hover
  rw [h.calm.totals_eq hover] at htotals
  rw [h.size] at hlength hcompleted hfailures htotals
  -- the tallies are merged without an overflow, since what is foretold fits
  have hmerged' : Report.mergeAll Tally.empty ((r.accounts s (.ok
      ((r.pool.store.keyspace s.config.database).contains s.config.sentinelKey))).workers.map
        WorkerReport.tally) = .ok t := hmerged
  cases hreport : Report.ofAccounts (r.accounts s (.ok
      ((r.pool.store.keyspace s.config.database).contains s.config.sentinelKey))) with
  | error o =>
    rw [Report.ofAccounts, hmerged'] at hreport
    cases hreport
  | ok report =>
    rw [Report.ofAccounts, hmerged'] at hreport
    refine ⟨report, rfl, ?_⟩
    rw [← Except.ok.inj hreport, Foretold, forecast, Report.mk.injEq]
    refine ⟨hlength, hcompleted, hcancelled, ?_, (congrArg Totals.iterations htotals :),
      (congrArg Totals.transactional htotals :), (congrArg Totals.direct htotals :),
      (congrArg Totals.highPriority htotals :), ?_, (congrArg Totals.aborted htotals :),
      (congrArg Totals.pauses htotals :), rfl, rfl, rfl, h.chains, rfl, rfl, ?_, ?_⟩
    · show (Report.failuresOf (r.pool.reports?.getD [])).length = _
      rw [hfailures]
      split
      · rw [List.length_map, List.length_range]
      · rfl
    · rw [htotals]
    · exact congrArg some (h.sentinel hover)
    · show (Report.failuresOf (r.pool.reports?.getD [])).map WorkerError.message = _
      rw [hfailures]
      split
      · rw [List.map_map]
        rfl
      · rfl

/-- The verdict on a run with a report as foretold. -/
lemma Reported.verdict {sentinel : Except StoreError Bool} {report : Report}
    (h : Reported s store l r sentinel report) :
    Run.verdict (Report.failuresOf (r.pool.reports?.getD [])) sentinel report =
      if report.failed = 0 then .finished report
      else .failed (.workersFailed report.failed (.guarded 0 2)) := by
  obtain ⟨present, rfl⟩ := h.sentinel_ok
  have hfailed : report.failed = (forecast s (store.keyspace s.config.database)).failed := by
    rw [h.foretold]
  rw [hfailed, h.calm.failures h.isOver, h.size, forecast]
  dsimp only
  by_cases hheld : s.config.plan.HeldUp
      (s.config.plan.refuses (store.keyspace s.config.database))
  · rw [if_pos hheld, if_pos hheld]
    cases hworkers : s.config.workers with
    | zero => rfl
    | succ n =>
        rw [List.range_succ_eq_map, List.map_cons, if_neg (Nat.succ_ne_zero n)]
        simp [Run.verdict]
  · rw [if_neg hheld, if_neg hheld]
    rfl

/-! ### The course of a run -/

/-- How such a run stands in its phase. -/
def OnCourse (s : Setting Memory) (store : Memory) (l : ℕ) (r : Run Memory) : Prop :=
  match r.phase with
  | .selecting => r.database = none ∧ r.pool.store = store ∧ r.pool.signals = Signals.fresh
  | .launched | .gathering => Underway s store l r
  | .retiring | .checking => Underway s store l r ∧ r.pool.isOver = true
  | .reporting sentinel report => Reported s store l r sentinel report
  | .acknowledging sentinel report =>
    Reported s store l r sentinel report ∧ .reported report ∈ r.trail ∧
      (∃ text, s.reporter report = .ok text) ∧
      (s.config.waitForAck && report.failures.isEmpty) = true
  | .closing sentinel report =>
    Reported s store l r sentinel report ∧ .reported report ∈ r.trail ∧
      (∃ text, s.reporter report = .ok text) ∧
      ((s.config.waitForAck && report.failures.isEmpty) = true → acknowledge s.input = .ok ())
  | .ended o => ForetoldOutcome s (store.keyspace s.config.database) r.trail o

/-- The sequel where the report goes out. -/
lemma sequel_of_reporter {report : Report} {text : String} (ht : s.reporter report = .ok text) :
    sequel s report =
      match if s.config.waitForAck && report.failures.isEmpty then acknowledge s.input
        else .ok () with
      | .error f => .failed (.io f)
      | .ok () =>
        if report.failed = 0 then .finished report
        else .failed (.workersFailed report.failed (.guarded 0 2)) := by
  rw [sequel, ht]

lemma ForetoldOutcome.of_report {report : Report} {initial : Keyspace} {trail : List Deed}
    {o : Outcome} (hroom : crowding? s = none) (hmem : .reported report ∈ trail)
    (hforetold : Foretold s initial report) (ho : o = sequel s report) :
    ForetoldOutcome s initial trail o := by
  rw [ForetoldOutcome, hroom]
  exact ⟨report, hmem, hforetold, ho⟩

/-- What happens beside the moves of the run: the pool stays calm, and once it is over it stays
so. -/
lemma OnCourse.beside {l' : ℕ} (h : OnCourse s store l r) (hphase : r'.phase = r.phase)
    (htrail : r'.trail = r.trail) (hdb : r'.database = r.database)
    (hstart : r.database = none → r'.pool.store = r.pool.store ∧ r'.pool.signals = r.pool.signals)
    (hover : r.pool.isOver = true → r'.pool.isOver = true)
    (hunder : Underway s store l r → Underway s store l' r') : OnCourse s store l' r' := by
  have hreported {sentinel : Except StoreError Bool} {report : Report}
      (hr : Reported s store l r sentinel report) : Reported s store l' r' sentinel report :=
    ⟨hunder hr.toUnderway, hover hr.isOver, hr.sentinel_ok, hr.foretold⟩
  rw [OnCourse] at h ⊢
  rw [hphase, htrail, hdb]
  cases hp : r.phase with
  | selecting =>
      rw [hp] at h
      obtain ⟨hstore, hsignals⟩ := hstart h.1
      exact ⟨h.1, hstore.trans h.2.1, hsignals.trans h.2.2⟩
  | launched =>
      rw [hp] at h
      exact hunder h
  | gathering =>
      rw [hp] at h
      exact hunder h
  | retiring =>
      rw [hp] at h
      exact ⟨hunder h.1, hover h.2⟩
  | checking =>
      rw [hp] at h
      exact ⟨hunder h.1, hover h.2⟩
  | reporting sentinel report =>
      rw [hp] at h
      exact hreported h
  | acknowledging sentinel report =>
      rw [hp] at h
      exact ⟨hreported h.1, h.2⟩
  | closing sentinel report =>
      rw [hp] at h
      exact ⟨hreported h.1, h.2⟩
  | ended o =>
      rw [hp] at h
      exact h

/-- What a run is promised whose outcome is foretold: its store is inside the process and open, it
has no deadline, no failing worker stops the others, and its iterations can be counted. -/
structure Predictable (s : Setting Memory) (store : Memory) : Prop where
  connection : s.connection = Memory.connection
  unclosed : store.closed = false
  deadline : s.config.deadline = none
  lenient : s.config.strictGuard = false ∨ s.config.failurePolicy = .continue
  count : s.config.workers * s.config.plan.last < Totals.counterLimit

/-- A change that leaves the workers, the store and the chains alone, and tells nobody to stop. -/
lemma Underway.of_eq (h : Underway s store l r) (hdb : r'.database = r.database)
    (hplan : r'.pool.plan = r.pool.plan) (hpolicy : r'.pool.policy = r.pool.policy)
    (hworkers : r'.pool.workers = r.pool.workers) (hstore : r'.pool.store = r.pool.store)
    (hlifecycle : r'.pool.signals.lifecycle = true)
    (hshutdown : r'.pool.signals.shutdown = true → r.pool.isOver = true)
    (hchains : r'.pressure.chains = r.pressure.chains) : Underway s store l r' :=
  ⟨h.room, hdb.trans h.database, h.calm.of_eq hplan hpolicy hworkers hstore hlifecycle hshutdown,
    by rw [hworkers]; exact h.size, hchains.trans h.chains⟩

lemma OnCourse.mono {l' : ℕ} (h : OnCourse s store l r) (hle : l ≤ l') : OnCourse s store l' r :=
  h.beside rfl rfl rfl (fun _ => ⟨rfl, rfl⟩) id fun hunder =>
    { hunder with calm := hunder.calm.mono hle }

/-- A move to another phase. -/
lemma Underway.goTo (h : Underway s store l r) (hdb : r'.database = r.database)
    (hpool : r'.pool.plan = r.pool.plan ∧ r'.pool.policy = r.pool.policy ∧
      r'.pool.workers = r.pool.workers ∧ r'.pool.store = r.pool.store ∧
      r'.pool.signals = r.pool.signals)
    (hchains : r'.pressure.chains = r.pressure.chains) : Underway s store l r' := by
  obtain ⟨hplan, hpolicy, hworkers, hstore, hsignals⟩ := hpool
  refine h.of_eq hdb hplan hpolicy hworkers hstore ?_ ?_ hchains
  · rw [hsignals]
    exact h.calm.lifecycle
  · rw [hsignals]
    exact h.calm.shutdown

lemma Predictable.database (hp : Predictable s store) :
    s.connection.database s.config.database store = .ok (Memory.databaseOf s.config.database) := by
  rw [hp.connection]
  exact Memory.connection_database hp.unclosed _

/-- The look for the sentinel key at an open store. -/
lemma Underway.keyExists (h : Underway s store l r) :
    ((Memory.databaseOf s.config.database).keyExists s.config.sentinelKey r.pool.store) =
      (.ok ((r.pool.store.keyspace s.config.database).contains s.config.sentinelKey),
        r.pool.store) :=
  Memory.keyExists_databaseOf h.calm.unclosed _ _

/-- The workers are launched. -/
lemma Predictable.launch (hp : Predictable s store) (hdb : r.pool.store = store)
    (hsignals : r.pool.signals = Signals.fresh) (hroom : crowding? s = none) :
    Underway s store l (r.launch s (Memory.databaseOf s.config.database)) := by
  subst hdb
  have hcalm := (Pool.Calm.launch s.config.plan s.config.failurePolicy s.config.workers s.entropy
    s.config.database hp.unclosed).mono (Nat.zero_le l)
  refine ⟨hroom, rfl, hcalm.of_eq rfl rfl rfl rfl ?_ ?_, ?_, ?_⟩
  · show r.pool.signals.lifecycle = true
    rw [hsignals]
    rfl
  · show r.pool.signals.shutdown = true → _
    rw [hsignals]
    exact fun h => absurd h Bool.false_ne_true
  · show ((Array.range s.config.workers).map _).size = _
    rw [Array.size_map, Array.size_range]
  · show (Array.replicate (chainCount s) 0).size = _
    rw [Array.size_replicate]

/-- The look for the sentinel key leaves a run underway. -/
lemma Underway.looked (h : Underway s store l r) (phase : Phase) :
    Underway s store l ((r.looked s (Memory.databaseOf s.config.database)).goTo phase) := by
  have hpool : ((r.looked s (Memory.databaseOf s.config.database)).goTo phase).pool = _ :=
    looked_pool s r _
  refine h.goTo (looked_database s r _) ?_ ?_
  · rw [hpool, h.keyExists]
    exact ⟨rfl, rfl, rfl, rfl, rfl⟩
  · show (r.looked s _).pressure.chains = _
    rw [looked_pressure]

/-- A run that has its report still has it once the report is out. -/
lemma Reported.putText {sentinel : Except StoreError Bool} {report : Report}
    (h : Reported s store l r sentinel report) (text : String) (phase : Phase) :
    Reported s store l ((r.putText report text).goTo phase) sentinel report := by
  have hpool := putText_goTo_pool r report text phase
  refine ⟨h.toUnderway.goTo (putText_database r report text) ?_ ?_, ?_, h.sentinel_ok, h.foretold⟩
  · rw [hpool]
    exact ⟨rfl, rfl, rfl, rfl, rfl⟩
  · show (r.putText report text).pressure.chains = _
    rw [putText_pressure]
  · rw [hpool]
    exact h.isOver

/-- The start is signalled. -/
lemma Underway.release (h : Underway s store l r) : Underway s store l (r.release s) := by
  have hstart : r.pool.signals.start = { r.pool.signals with fired := true } :=
    if_pos h.calm.lifecycle
  refine h.of_eq rfl rfl rfl rfl rfl ?_ ?_ rfl
  · show r.pool.signals.start.lifecycle = true
    rw [hstart]
    exact h.calm.lifecycle
  · show r.pool.signals.start.shutdown = true → _
    rw [hstart]
    exact h.calm.shutdown

/-- Once the workers are gone the chains are told to stop, which disturbs nobody any more. -/
lemma Underway.gathered (h : Underway s store l r) (hover : r.pool.isOver = true) :
    Underway s store l r.gathered := by
  refine h.of_eq rfl (Pool.requestShutdown_plan _) (Pool.requestShutdown_policy _)
    (Pool.requestShutdown_workers _) (Pool.requestShutdown_store _) ?_ (fun _ => hover) rfl
  exact (Pool.Raised.requestShutdown (r.pool.note .allJoined)).lifecycle h.calm.lifecycle

/-- The report that is made after the look is as foretold, and there is one. -/
lemma Underway.ofAccounts (h : Underway s store l r) (hover : r.pool.isOver = true)
    (hcount : s.config.workers * s.config.plan.last < Totals.counterLimit)
    (hl : l < Duration.limit) {db : Database Memory} (hdb : r.database = some db) :
    ∃ report, Report.ofAccounts
        (r.accounts s (db.keyExists s.config.sentinelKey r.pool.store).1) = .ok report ∧
      Reported s store l ((r.looked s db).goTo
        (.reporting (db.keyExists s.config.sentinelKey r.pool.store).1 report))
        (db.keyExists s.config.sentinelKey r.pool.store).1 report := by
  rw [h.database] at hdb
  cases hdb
  obtain ⟨report, hreport, hforetold⟩ := h.report hover hcount hl
  rw [h.keyExists]
  exact ⟨report, hreport, h.looked _, (looked_isOver s r _).trans hover, ⟨_, rfl⟩, hforetold⟩

section Reported

variable {sentinel : Except StoreError Bool} {report : Report}

/-- The report goes out, and the run waits for the operator or closes its connection. -/
lemma Reported.reported (h : Reported s store l r sentinel report) {text : String}
    (ht : s.reporter report = .ok text) :
    OnCourse s store l ((r.putText report text).goTo
      (if s.config.waitForAck && report.failures.isEmpty then .acknowledging sentinel report
        else .closing sentinel report)) := by
  have hmem : .reported report ∈ (r.putText report text).trail :=
    (mem_putText_trail r report text).mpr (.inr (.inl rfl))
  by_cases hwait : (s.config.waitForAck && report.failures.isEmpty) = true
  · rw [if_pos hwait]
    exact ⟨h.putText text _, hmem, ⟨text, ht⟩, hwait⟩
  · rw [if_neg hwait]
    exact ⟨h.putText text _, hmem, ⟨text, ht⟩, fun hw => absurd hw hwait⟩

lemma Reported.unreported (h : Reported s store l r sentinel report) {f : IoFault}
    (hf : s.reporter report = .error f) :
    OnCourse s store l ((r.did (.reported report)).finish (.failed (.io f))) := by
  refine ForetoldOutcome.of_report h.room List.mem_cons_self h.foretold ?_
  rw [sequel, hf]

/-- The operator is heard. -/
lemma Reported.acknowledged (h : Reported s store l r sentinel report) :
    Reported s store l (((r.did (.printed prompt)).did .awaited).goTo (.closing sentinel report))
      sentinel report :=
  ⟨h.toUnderway.goTo rfl ⟨rfl, rfl, rfl, rfl, rfl⟩ rfl, h.isOver, h.sentinel_ok, h.foretold⟩

lemma Reported.unacknowledged (h : Reported s store l r sentinel report) {text : String}
    {f : IoFault} (hmem : .reported report ∈ r.trail) (ht : s.reporter report = .ok text)
    (hwait : (s.config.waitForAck && report.failures.isEmpty) = true)
    (hf : acknowledge s.input = .error f) :
    OnCourse s store l (((r.did (.printed prompt)).did .awaited).finish (.failed (.io f))) := by
  refine ForetoldOutcome.of_report h.room
    (List.mem_cons_of_mem _ (List.mem_cons_of_mem _ hmem)) h.foretold ?_
  rw [sequel_of_reporter ht, if_pos hwait, hf]

/-- The store is open, so that it can be closed. -/
lemma Reported.close_ok (hp : Predictable s store) (h : Reported s store l r sentinel report)
    (e : StoreError) : (s.connection.close r.pool.store).1 ≠ .error e := by
  rw [hp.connection]
  show (r.pool.store.close).1 ≠ .error e
  rw [Memory.close, h.calm.unclosed]
  nofun

lemma Reported.closed (h : Reported s store l r sentinel report) {text : String}
    (hmem : .reported report ∈ r.trail) (ht : s.reporter report = .ok text)
    (hack : (s.config.waitForAck && report.failures.isEmpty) = true →
      acknowledge s.input = .ok ()) :
    OnCourse s store l (((r.closed s).note .released).finish
      (Run.verdict (Report.failuresOf (r.pool.reports?.getD [])) sentinel report)) := by
  refine ForetoldOutcome.of_report h.room (List.mem_cons_of_mem _ hmem) h.foretold ?_
  rw [h.verdict, sequel_of_reporter ht]
  by_cases hwait : (s.config.waitForAck && report.failures.isEmpty) = true
  · rw [if_pos hwait, hack hwait]
  · rw [if_neg hwait]

end Reported

/-- Every move of the run keeps to the course. -/
lemma OnCourse.advanced (hp : Predictable s store) (h : OnCourse s store l r)
    (hl : l < Duration.limit) (hs : Advanced s r r') : OnCourse s store l r' := by
  rw [OnCourse] at h
  cases hs with
  | refused hphase hdb =>
      rw [hphase] at h
      rw [h.2.1, hp.database] at hdb
      cases hdb
  | crowded hphase hdb hb =>
      show ForetoldOutcome s _ _ _
      rw [ForetoldOutcome, hb]
  | launch hphase hdb hb =>
      rw [hphase] at h
      rw [h.2.1, hp.database] at hdb
      cases hdb
      exact hp.launch (r := r.did (.selected s.config.database)) h.2.1 h.2.2 hb
  | release hphase =>
      rw [hphase] at h
      exact Underway.release h
  | gathered hphase hover =>
      rw [hphase] at h
      exact ⟨Underway.gathered h hover, (gathered_isOver r).trans hover⟩
  | retired hphase hover =>
      rw [hphase] at h
      exact ⟨h.1.goTo rfl ⟨rfl, rfl, rfl, rfl, rfl⟩ rfl, h.2⟩
  | overflowed hphase hdb ho =>
      -- what the workers have counted has room, so that there is a report
      rw [hphase] at h
      obtain ⟨report, hreport, -⟩ := h.1.ofAccounts h.2 hp.count hl hdb
      rw [hreport] at ho
      cases ho
  | looked hphase hdb ho =>
      rw [hphase] at h
      obtain ⟨report, hreport, hreported⟩ := h.1.ofAccounts h.2 hp.count hl hdb
      rw [hreport] at ho
      cases ho
      exact hreported
  | unreported hphase hf =>
      rw [hphase] at h
      exact Reported.unreported h hf
  | reported hphase ht =>
      rw [hphase] at h
      exact Reported.reported h ht
  | unacknowledged hphase hf =>
      rw [hphase] at h
      obtain ⟨hreported, hmem, ⟨text, ht⟩, hwait⟩ := h
      exact hreported.unacknowledged hmem ht hwait hf
  | acknowledged hphase hf =>
      rw [hphase] at h
      obtain ⟨hreported, hmem, htext, hwait⟩ := h
      exact ⟨hreported.acknowledged, List.mem_cons_of_mem _ (List.mem_cons_of_mem _ hmem), htext,
        fun _ => hf⟩
  | unclosed hphase hc =>
      rw [hphase] at h
      exact absurd hc (h.1.close_ok hp _)
  | closed hphase hc =>
      rw [hphase] at h
      obtain ⟨hreported, hmem, ⟨text, ht⟩, hack⟩ := h
      exact hreported.closed hmem ht hack

/-- An event of the pool keeps to the course. -/
lemma OnCourse.pool (hp : Predictable s store) (h : OnCourse s store l r) {db : Database Memory}
    (hdb : r.database = some db) {d : Pool.Event} (hcancel : d ≠ .cancel)
    (hdrop : d ≠ .dropLifecycle) (hl : l + r.pool.latencyOf d < Duration.limit) :
    OnCourse s store (l + r.pool.latencyOf d) { r with pool := r.pool.step db d } := by
  have hstepped := Pool.stepped db r.pool d
  refine h.beside rfl rfl rfl ?_ ?_ ?_
  · intro hnone
    rw [hdb] at hnone
    cases hnone
  · intro hover
    show (r.pool.step db d).workers.all Worker.isGone = true
    rw [(hstepped.of_isOver hover).1]
    exact hover
  · intro hunder
    have hcount := hp.count
    rw [← hunder.size] at hcount
    have hsame := hunder.database
    rw [hdb] at hsame
    cases hsame
    exact ⟨hunder.room, hunder.database,
      hunder.calm.stepped hp.lenient hcount hl hcancel hdrop hstepped,
      hstepped.size.trans hunder.size, hunder.chains⟩

/-- **Every event keeps a run on course** that does not tell it to stop, as long as the latencies
have room. -/
theorem OnCourse.stepped (hp : Predictable s store) (h : OnCourse s store l r)
    (hl : l + r.latencyOf e < Duration.limit) (he : e ≠ .cancel) (hs : Stepped s r e r') :
    OnCourse s store (l + r.latencyOf e) r' := by
  cases hs with
  | control hs => exact h.advanced hp hl hs
  | turn hdb => exact h.pool hp hdb (by intro hd; cases hd) (by intro hd; cases hd) hl
  | interrupt hdb => exact h.pool hp hdb (by intro hd; cases hd) (by intro hd; cases hd) hl
  | link i =>
      refine h.beside rfl rfl rfl (fun _ => ⟨rfl, rfl⟩) id fun hunder => ?_
      exact hunder.of_eq rfl rfl rfl rfl rfl hunder.calm.lifecycle hunder.calm.shutdown
        (Pressure.chains_step r.pressure r.pool.signals.shutdown i)
  | ring ha hlimit hdue =>
      rw [hp.deadline] at hlimit
      cases hlimit
  | cancel => exact absurd rfl he
  | tick d =>
      refine h.beside rfl rfl rfl (fun _ => ⟨rfl, rfl⟩) id fun hunder => ?_
      exact hunder.of_eq rfl rfl rfl rfl rfl hunder.calm.lifecycle hunder.calm.shutdown rfl
  | idle => exact h.mono (Nat.le_add_right _ _)

/-- What is on course at first stays so through every run that nobody stops. -/
theorem OnCourse.run (hp : Predictable s store) (h : OnCourse s store l r) {events : List Event}
    (he : ∀ e ∈ events, e ≠ .cancel) (hl : l + r.latency s events < Duration.limit) :
    OnCourse s store (l + r.latency s events) (r.run s events) := by
  induction events generalizing l r with
  | nil => exact h
  | cons e events ih =>
      rw [latency, ← Nat.add_assoc] at hl ⊢
      have hstep := h.stepped hp (by omega) (he e List.mem_cons_self) (Run.stepped s r e)
      exact ih hstep (fun e' he' => he e' (List.mem_cons_of_mem e he')) hl

/-- **The outcome of a run at the store inside the process does not depend on the order of its
calls.** Where nobody stops it, every run can be brought to its end, and as long as the latencies
have room its outcome follows from its setting and from what the store held at first. -/
theorem outcome_foretold (hp : Predictable s store) {events : List Event}
    (he : ∀ e ∈ events, e ≠ .cancel) :
    (∃ more, (∀ e ∈ more, e ≠ .cancel) ∧
      (∃ o, ((begin s store).run s (events ++ more)).outcome? = some o) ∧
      (begin s store).latency s (events ++ more) ≤
        (begin s store).latency s events + ((begin s store).run s events).pool.pending) ∧
    ((begin s store).latency s events < Duration.limit →
      ∀ o, ((begin s store).run s events).outcome? = some o →
        ForetoldOutcome s (store.keyspace s.config.database) ((begin s store).run s events).trail
          o) := by
  refine ⟨?_, ?_⟩
  · have hlive : ((begin s store).run s events).Live :=
      run_induction (fun h hs => h.stepped hs) (.begin s store) events
    obtain ⟨more, hmore, hended, hlatency⟩ := exists_ended s hlive
    refine ⟨more, hmore, ?_, ?_⟩
    · rw [run_append]
      exact hended
    · rw [latency_append]
      exact Nat.add_le_add_left hlatency _
  · intro hl o ho
    -- the latency so far is part of the invariant, so it starts at zero
    have hbegin : OnCourse s store 0 (begin s store) := ⟨rfl, rfl, rfl⟩
    have hcourse := hbegin.run hp he (by rw [Nat.zero_add]; exact hl)
    have hphase : ((begin s store).run s events).phase = .ended o := by
      rw [outcome?] at ho
      split at ho
      · rename_i o' hphase
        rw [hphase, Option.some.inj ho]
      · cases ho
    rw [OnCourse, hphase] at hcourse
    exact hcourse

/-- Two strict workers at a store that holds the guard, where a failure does not stop the others. -/
theorem outcome_foretold_at_held_guard :
    let s : Setting Memory :=
      { config :=
          { workers := 2, maxIterations := 3, strictGuard := true, failurePolicy := .continue
            chains := .fixed 0, waitForAck := false }
        processors := 1
        entropy := fun _ => ⟨Key.ofSeed 0, 0, [0, 0x80000000]⟩
        connection := Memory.connection
        reporter := fun _ => .ok ""
        input := [] }
    let store := Memory.fresh.withKeyspace 0 (Table.empty.insert Config.defaultGuardKey "held")
    let events := [.control, .control] ++ (List.replicate 9 [.turn 1, .tick 7, .turn 0]).flatten ++
      List.replicate 5 .control
    let r := (begin s store).run s events
    let o := Outcome.failed (.workersFailed 2 (.guarded 0 2))
    Predictable s store ∧ (begin s store).latency s events = 28 ∧ r.outcome? = some o ∧
      ForetoldOutcome s (store.keyspace s.config.database) r.trail o := by
  intro s store events r o
  have hp : Predictable s store := ⟨rfl, rfl, rfl, .inr rfl, by decide⟩
  have he : ∀ e ∈ events, e ≠ .cancel := by decide
  have hlatency : (begin s store).latency s events = 28 := by decide +kernel
  have ho : r.outcome? = some o := by decide +kernel
  refine ⟨hp, hlatency, ho, ?_⟩
  exact (outcome_foretold hp he).2 (by rw [hlatency]; decide) o ho

/-- A run without iterations that has more workers than there is room for breaks down. -/
theorem broken_where_crowded :
    let s : Setting Memory :=
      { config :=
          { workers := 18446744073709551615, maxIterations := 1, chains := .fixed 0
            waitForAck := false }
        processors := 1
        entropy := fun _ => Generator.ofSeed 0
        connection := Memory.connection
        reporter := fun _ => .ok ""
        input := [] }
    Predictable s Memory.fresh ∧
      ((begin s Memory.fresh).run s [.control]).outcome? = some (.broken .tooManyWorkers) := by
  intro s
  exact ⟨⟨rfl, rfl, rfl, .inl rfl, by decide⟩, by decide +kernel⟩

end Run

end StoreSoak
