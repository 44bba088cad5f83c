import StoreSoak.Proofs.Pool.Unopposed
import StoreSoak.Proofs.Run.Order
import StoreSoak.Proofs.Run.Shutdown

/-!
Runs at the store inside the process whose guard is never there.

Where the guard is absent at first and is not the key that the workers write, nothing goes wrong in
a run, however its events are interleaved and whoever stops its workers: no transaction aborts, no
worker fails, and the store stays as it was but for the shared key. Such a run ends with its report,
as long as there is room for its workers and chains, and for what they count together.

* `Unguarded` is what such a run is promised, `Faultless` a report that tells of nothing wrong.
* `Clear`: the invariant of such a run; `Clear.stepped` says that every event keeps it.
* `Concluded`: the ways in which such a run can end.
* `run_clear` says this of every moment of a run.
-/

namespace StoreSoak

namespace Run

/-- What a run is promised that finds no guard: its store is inside the process and open, the guard
is not there and is not the key that is written, and the iterations are numbered with 64 bits. -/
structure Unguarded (s : Setting Memory) (store : Memory) : Prop where
  connection : s.connection = Memory.connection
  unclosed : store.closed = false
  absent : (store.keyspace s.config.database).contains s.config.guardKey = false
  distinct : s.config.guardKey ≠ s.config.sharedKey
  iterations : s.config.maxIterations ≤ Totals.counterLimit

/-- A report that tells of no failure and no aborted transaction: every worker has completed or was
stopped. -/
structure Faultless {σ : Type} (s : Setting σ) (report : Report) : Prop where
  workers : report.workers = s.config.workers
  balanced : report.completed + report.cancelled = s.config.workers
  failed : report.failed = 0
  failures : report.failures = []
  aborted : report.abortedTransactions = 0

/-- How a run ends that nothing stands in the way of: it breaks down where there is no room for its
chains and workers, or for what its workers have counted together. Else it has a report, and
finishes with it where the report goes out and the operator is heard. -/
structure Concluded {σ : Type} (s : Setting σ) (r : Run σ) (o : Outcome) : Prop where
  crowded : ∀ b, crowding? s = some b → o = .broken b
  overflowed : crowding? s = none → ¬ r.pool.totals.Fits → ∃ x, o = .broken (.overflow x)
  reported : crowding? s = none → r.pool.totals.Fits →
    ∃ report, .reported report ∈ r.trail ∧ Faultless s report ∧
      ((∃ text, s.reporter report = .ok text) →
        (s.config.waitForAck = true → acknowledge s.input = .ok ()) → o = .finished report)

variable {s : Setting Memory} {store : Memory} {r r' : Run Memory} {e : Event}

lemma Unguarded.refuses (hg : Unguarded s store) :
    s.config.plan.refuses (store.keyspace s.config.database) = false := by
  rw [Plan.refuses, Bool.or_eq_false_iff, decide_eq_false_iff_not]
  exact ⟨hg.absent, hg.distinct⟩

lemma Unguarded.last_lt (hg : Unguarded s store) : s.config.plan.last < Totals.counterLimit := by
  have hle : s.config.plan.maxIterations ≤ Totals.counterLimit := hg.iterations
  have hpos : 0 < Totals.counterLimit := by decide
  rw [Plan.last]
  omega

lemma Unguarded.database (hg : Unguarded s store) :
    s.connection.database s.config.database store = .ok (Memory.databaseOf s.config.database) := by
  rw [hg.connection]
  exact Memory.connection_database hg.unclosed _

/-! ### The invariant -/

/-- A run whose workers were launched at the store inside the process. -/
structure Begun (s : Setting Memory) (r : Run Memory) : Prop where
  room : crowding? s = none
  database : r.database = some (Memory.databaseOf s.config.database)
  unclosed : r.pool.store.closed = false
  size : r.pool.workers.size = s.config.workers

/-- A run that has its report. -/
structure Accounted (s : Setting Memory) (r : Run Memory) (sentinel : Except StoreError Bool)
    (report : Report) : Prop extends Begun s r where
  isOver : r.pool.isOver = true
  fits : r.pool.totals.Fits
  sentinel_ok : ∃ present, sentinel = .ok present
  faultless : Faultless s report

/-- How such a run stands in its phase. -/
def Untroubled (s : Setting Memory) (store : Memory) (r : Run Memory) : Prop :=
  match r.phase with
  | .selecting => r.database = none ∧ r.pool.store = store
  | .launched | .gathering => Begun s r
  | .retiring | .checking => Begun s r ∧ r.pool.isOver = true
  | .reporting sentinel report => Accounted s r sentinel report
  | .acknowledging sentinel report =>
    Accounted s r sentinel report ∧ .reported report ∈ r.trail ∧ s.config.waitForAck = true
  | .closing sentinel report => Accounted s r sentinel report ∧ .reported report ∈ r.trail
  | .ended o => (r.database = none ∨ r.pool.isOver = true) ∧ Concluded s r o

/-- A run that nothing stands in the way of. -/
structure Clear (s : Setting Memory) (store : Memory) (r : Run Memory) : Prop where
  pool : r.pool.Unopposed s.config.plan s.entropy s.config.database store
  standing : Untroubled s store r

lemma Clear.begin (s : Setting Memory) (store : Memory) : Clear s store (begin s store) := by
  have hnone {i : ℕ} {w : Worker} : (Run.begin s store).pool.workers[i]? ≠ some w := by
    intro hw
    cases hw
  exact ⟨⟨⟨rfl, fun hw => absurd hw hnone, fun hw => absurd hw hnone⟩, fun hw => absurd hw hnone,
    fun hw => absurd hw hnone, .refl _ _ store⟩, rfl, rfl⟩

/-- What leaves the workers and the store alone leaves a run that has begun as it is. -/
lemma Begun.of_eq (h : Begun s r) (hdb : r'.database = r.database)
    (hworkers : r'.pool.workers = r.pool.workers) (hstore : r'.pool.store = r.pool.store) :
    Begun s r' :=
  ⟨h.room, hdb.trans h.database, by rw [hstore]; exact h.unclosed, by rw [hworkers]; exact h.size⟩

lemma totals_of_eq {σ : Type} {p p' : Pool σ} (hworkers : p'.workers = p.workers) :
    p'.totals = p.totals := by
  rw [Pool.totals, hworkers, Pool.totals]

lemma isOver_of_eq {σ : Type} {p p' : Pool σ} (hworkers : p'.workers = p.workers)
    (hover : p.isOver = true) : p'.isOver = true := by
  rw [Pool.isOver, hworkers]
  exact hover

lemma Accounted.of_eq {sentinel : Except StoreError Bool} {report : Report}
    (h : Accounted s r sentinel report) (hdb : r'.database = r.database)
    (hworkers : r'.pool.workers = r.pool.workers) (hstore : r'.pool.store = r.pool.store) :
    Accounted s r' sentinel report :=
  ⟨h.toBegun.of_eq hdb hworkers hstore, isOver_of_eq hworkers h.isOver,
    by rw [totals_of_eq hworkers]; exact h.fits, h.sentinel_ok, h.faultless⟩

lemma Concluded.of_eq {o : Outcome} (h : Concluded s r o) (htrail : r'.trail = r.trail)
    (hworkers : r'.pool.workers = r.pool.workers) : Concluded s r' o := by
  refine ⟨h.crowded, ?_, ?_⟩
  · rw [totals_of_eq hworkers]
    exact h.overflowed
  · rw [totals_of_eq hworkers, htrail]
    exact h.reported

/-- What happens besides the moves of the run leaves it untroubled. -/
lemma Untroubled.aside (h : Untroubled s store r) (ha : Aside r r')
    (hopen : r.pool.store.closed = false → r'.pool.store.closed = false)
    (hidle : r.database = none ∨ r.pool.isOver = true →
      r'.pool.workers = r.pool.workers ∧ r'.pool.store = r.pool.store) :
    Untroubled s store r' := by
  -- a pool with workers may move and keeps its store open; one without stays as it is
  have hbegun (hb : Begun s r) : Begun s r' :=
    ⟨hb.room, ha.database.trans hb.database, hopen hb.unclosed, ha.size.trans hb.size⟩
  have haccounted {sentinel : Except StoreError Bool} {report : Report}
      (hr : Accounted s r sentinel report) : Accounted s r' sentinel report :=
    hr.of_eq ha.database (hidle (.inr hr.isOver)).1 (hidle (.inr hr.isOver)).2
  rw [Untroubled] at h ⊢
  rw [ha.phase, ha.database, ha.trail]
  cases hp : r.phase with
  | selecting =>
      rw [hp] at h
      exact ⟨h.1, (hidle (.inl h.1)).2.trans h.2⟩
  | launched =>
      rw [hp] at h
      exact hbegun h
  | gathering =>
      rw [hp] at h
      exact hbegun h
  | retiring =>
      rw [hp] at h
      exact ⟨hbegun h.1, ha.isOver h.2⟩
  | checking =>
      rw [hp] at h
      exact ⟨hbegun h.1, ha.isOver h.2⟩
  | reporting sentinel report =>
      rw [hp] at h
      exact haccounted h
  | acknowledging sentinel report =>
      rw [hp] at h
      exact ⟨haccounted h.1, h.2⟩
  | closing sentinel report =>
      rw [hp] at h
      exact ⟨haccounted h.1, h.2⟩
  | ended o =>
      rw [hp] at h
      exact ⟨h.1.imp id ha.isOver, h.2.of_eq ha.trail (hidle h.1).1⟩

/-- A run that ends with its report out. -/
lemma Untroubled.ended {o : Outcome} (hphase : r'.phase = .ended o)
    (hdone : r'.database = none ∨ r'.pool.isOver = true) (ho : Concluded s r' o) :
    Untroubled s store r' := by
  rw [Untroubled, hphase]
  exact ⟨hdone, ho⟩

/-- A run that has its report ends with it, unless the report does not go out or the operator is
not heard. -/
lemma Accounted.concluded {sentinel : Except StoreError Bool} {report : Report} {o : Outcome}
    (h : Accounted s r sentinel report) (hworkers : r'.pool.workers = r.pool.workers)
    (hmem : .reported report ∈ r'.trail)
    (ho : (∃ text, s.reporter report = .ok text) →
      (s.config.waitForAck = true → acknowledge s.input = .ok ()) → o = .finished report) :
    Concluded s r' o := by
  refine ⟨fun b hb => ?_, fun _ hno => ?_, fun _ _ => ⟨report, hmem, h.faultless, ho⟩⟩
  · rw [h.room] at hb
    cases hb
  · rw [totals_of_eq hworkers] at hno
    exact absurd h.fits hno

/-! ### The report -/

/-- The report of workers that have not failed is faultless, and there is one exactly where there is
room for what they have counted together. -/
lemma Clear.report (h : Clear s store r) (hb : Begun s r) (hover : r.pool.isOver = true)
    (sentinel : Except StoreError Bool) :
    (r.pool.totals.Fits → ∃ report, Report.ofAccounts (r.accounts s sentinel) = .ok report) ∧
      ∀ report, Report.ofAccounts (r.accounts s sentinel) = .ok report →
        r.pool.totals.Fits ∧ Faultless s report := by
  have hreports := h.pool.reports hover
  -- the reports are those of the pool, so what they sum up to is what the pool has counted
  have hsum : ((r.accounts s sentinel).workers.map fun w : WorkerReport => w.tally.totals).sum =
      r.pool.totals := by
    rw [accounts, hreports, Option.getD_some, List.map_map, Pool.totals]
    rfl
  refine ⟨fun hfits => Report.exists_of_fits (hsum ▸ hfits), fun report hreport => ?_⟩
  rw [Report.ofAccounts] at hreport
  cases hm : Report.mergeAll Tally.empty
      ((r.accounts s sentinel).workers.map WorkerReport.tally) with
  | error x =>
      rw [hm] at hreport
      cases hreport
  | ok t =>
      have htotals : t.totals = r.pool.totals := by
        rw [Report.totals_of_mergeAll hm, List.map_map, ← hsum]
        exact zero_add _
      have hfailures : Report.failuresOf (r.accounts s sentinel).workers = [] :=
        h.pool.failures hover
      rw [hm] at hreport
      cases hreport
      refine ⟨htotals ▸ ⟨t.counters_fit, t.latency_fits⟩, ?_, ?_, ?_, ?_, ?_⟩
      · show (r.pool.reports?.getD []).length = s.config.workers
        rw [hreports, Option.getD_some, List.length_map, Array.length_toList, hb.size]
      · exact (h.pool.balanced hover).trans hb.size
      · show (Report.failuresOf (r.accounts s sentinel).workers).length = 0
        rw [hfailures, List.length_nil]
      · show (Report.failuresOf (r.accounts s sentinel).workers).map WorkerError.message = []
        rw [hfailures, List.map_nil]
      · show t.totals.aborted = 0
        rw [htotals, h.pool.aborted]

/-! ### The moves -/

/-- The look for the sentinel key at an open store. -/
lemma Begun.keyExists (h : Begun s r) :
    (Memory.databaseOf s.config.database).keyExists s.config.sentinelKey r.pool.store =
      (.ok ((r.pool.store.keyspace s.config.database).contains s.config.sentinelKey),
        r.pool.store) :=
  Memory.keyExists_databaseOf h.unclosed _ _

/-- A move that leaves the workers and the content of the store alone keeps the pool unopposed. -/
lemma Clear.pool_of_eq (h : Clear s store r) (hplan : r'.pool.plan = r.pool.plan)
    (hworkers : r'.pool.workers = r.pool.workers) (hnow : r'.pool.now = r.pool.now)
    (hstore : r'.pool.store = r.pool.store) :
    r'.pool.Unopposed s.config.plan s.entropy s.config.database store :=
  h.pool.of_eq hplan hworkers ⟨0, hnow⟩ (by rw [hstore]; exact h.pool.kept)

/-- The workers are launched. -/
lemma Clear.launch (hstore : r.pool.store = store)
    (hopen : store.closed = false) (hroom : crowding? s = none) :
    Clear s store (r.launch s (Memory.databaseOf s.config.database)) := by
  have hlaunch := Pool.Unopposed.launch s.config.plan s.config.failurePolicy s.config.workers
    s.entropy s.config.database r.pool.store
  rw [hstore] at hlaunch
  refine ⟨hlaunch.of_eq rfl ?_ ⟨r.pool.now, (Nat.zero_add _).symm⟩ ?_, hroom, rfl, ?_, ?_⟩
  · show (Pool.launch s.config.plan s.config.failurePolicy s.config.workers s.entropy
      r.pool.store).workers = _
    rw [hstore]
  · show Memory.Kept s.config.plan s.config.database r.pool.store store
    rw [hstore]
    exact .refl _ _ store
  · show r.pool.store.closed = false
    rw [hstore]
    exact hopen
  · show ((Array.range s.config.workers).map _).size = _
    rw [Array.size_map, Array.size_range]

/-- The look for the sentinel key. -/
lemma Clear.looked (h : Clear s store r) (hb : Begun s r) (phase : Phase) :
    ((r.looked s (Memory.databaseOf s.config.database)).goTo phase).pool.Unopposed s.config.plan
      s.entropy s.config.database store := by
  have hpool : ((r.looked s (Memory.databaseOf s.config.database)).goTo phase).pool = _ :=
    looked_pool s r _
  exact h.pool_of_eq (by rw [hpool]) (by rw [hpool]) (by rw [hpool])
    (by rw [hpool, hb.keyExists])

/-- The connection is closed. -/
lemma Clear.kept_close (h : Clear s store r) : (r.pool.store.close).2.Kept s.config.plan
    s.config.database store := by
  rw [Memory.close]
  split
  · exact h.pool.kept
  · exact ⟨h.pool.kept.other, h.pool.kept.shared⟩

/-- There is no room for the chains and workers. -/
lemma Clear.crowded {b : Breakdown} (h : Clear s store r) (hdb : r.database = none)
    (hb : crowding? s = some b) :
    Clear s store ((r.did (.selected s.config.database)).finish (.broken b)) := by
  refine ⟨h.pool_of_eq rfl rfl rfl rfl, .ended rfl (.inl hdb) ?_⟩
  refine ⟨fun b' hb' => ?_, fun hroom => ?_, fun hroom => ?_⟩
  · rw [hb] at hb'
    rw [Option.some.inj hb']
  · rw [hb] at hroom
    cases hroom
  · rw [hb] at hroom
    cases hroom

/-- The workers are gathered, and the shutdown is asked for once more. -/
lemma Clear.gathered (h : Clear s store r) (hb : Begun s r) (hover : r.pool.isOver = true) :
    Clear s store r.gathered := by
  have hworkers := Pool.requestShutdown_workers (r.pool.note .allJoined)
  have hstore := Pool.requestShutdown_store (r.pool.note .allJoined)
  exact ⟨h.pool_of_eq (Pool.requestShutdown_plan _) hworkers (Pool.requestShutdown_now _) hstore,
    hb.of_eq rfl hworkers hstore, isOver_of_eq hworkers hover⟩

/-- There is no room for what the workers have counted together. -/
lemma Clear.overflowed {sentinel : Except StoreError Bool} {x : Overflow} (h : Clear s store r)
    (hb : Begun s r) (hover : r.pool.isOver = true)
    (hx : Report.ofAccounts (r.accounts s sentinel) = .error x) :
    Clear s store ((r.looked s (Memory.databaseOf s.config.database)).finish
      (.broken (.overflow x))) := by
  have hworkers := looked_workers s r (Memory.databaseOf s.config.database)
  have hfull : ¬ r.pool.totals.Fits := by
    intro hfits
    obtain ⟨report, hreport⟩ := (h.report hb hover sentinel).1 hfits
    rw [hreport] at hx
    cases hx
  refine ⟨h.looked hb _, .ended rfl (.inr (isOver_of_eq hworkers hover)) ?_⟩
  refine ⟨fun b hcrowded => ?_, fun _ _ => ⟨x, rfl⟩, fun _ hfits => ?_⟩
  · rw [hb.room] at hcrowded
    cases hcrowded
  · exact absurd (totals_of_eq hworkers ▸ hfits) hfull

/-- The report is made. -/
lemma Clear.accounted {report : Report} (h : Clear s store r) (hb : Begun s r)
    (hover : r.pool.isOver = true)
    (hreport : Report.ofAccounts (r.accounts s ((Memory.databaseOf s.config.database).keyExists
      s.config.sentinelKey r.pool.store).1) = .ok report) :
    Clear s store ((r.looked s (Memory.databaseOf s.config.database)).goTo
      (.reporting ((Memory.databaseOf s.config.database).keyExists s.config.sentinelKey
        r.pool.store).1 report)) := by
  obtain ⟨hfits, hfaultless⟩ := (h.report hb hover _).2 report hreport
  have haccounted : Accounted s r
      ((Memory.databaseOf s.config.database).keyExists s.config.sentinelKey r.pool.store).1
      report :=
    ⟨hb, hover, hfits, ⟨_, congrArg Prod.fst hb.keyExists⟩, hfaultless⟩
  exact ⟨h.looked hb _, haccounted.of_eq (looked_database s r _) (looked_workers s r _)
    ((looked_store s r _).trans (congrArg Prod.snd hb.keyExists))⟩

/-- The report goes out. -/
lemma Clear.reported {sentinel : Except StoreError Bool} {report : Report} (h : Clear s store r)
    (ha : Accounted s r sentinel report) (text : String) :
    Clear s store ((r.putText report text).goTo
      (if s.config.waitForAck && report.failures.isEmpty then .acknowledging sentinel report
        else .closing sentinel report)) := by
  have hpool := putText_pool r report text
  have hput : Accounted s (r.putText report text) sentinel report :=
    ha.of_eq (putText_database r report text) (by rw [hpool]) (by rw [hpool])
  have hmem : .reported report ∈ (r.putText report text).trail :=
    (mem_putText_trail r report text).mpr (.inr (.inl rfl))
  refine ⟨?_, ?_⟩
  · rw [putText_goTo_pool]
    exact h.pool
  · by_cases hwait : (s.config.waitForAck && report.failures.isEmpty) = true
    · rw [if_pos hwait]
      exact ⟨hput.of_eq rfl rfl rfl, hmem, (Bool.and_eq_true_iff.mp hwait).1⟩
    · rw [if_neg hwait]
      exact ⟨hput.of_eq rfl rfl rfl, hmem⟩

/-- The report does not go out. -/
lemma Clear.unreported {sentinel : Except StoreError Bool} {report : Report} {f : IoFault}
    (h : Clear s store r) (ha : Accounted s r sentinel report)
    (hf : s.reporter report = .error f) :
    Clear s store ((r.did (.reported report)).finish (.failed (.io f))) := by
  refine ⟨h.pool_of_eq rfl rfl rfl rfl, .ended rfl (.inr ha.isOver) ?_⟩
  refine ha.concluded rfl List.mem_cons_self ?_
  -- the end with the report is promised only for a reporter that writes it out
  rintro ⟨text, ht⟩
  rw [hf] at ht
  cases ht

/-- The operator is not heard. -/
lemma Clear.unacknowledged {sentinel : Except StoreError Bool} {report : Report} {f : IoFault}
    (h : Clear s store r) (ha : Accounted s r sentinel report)
    (hmem : .reported report ∈ r.trail) (hwait : s.config.waitForAck = true)
    (hf : acknowledge s.input = .error f) :
    Clear s store (((r.did (.printed prompt)).did .awaited).finish (.failed (.io f))) := by
  refine ⟨h.pool_of_eq rfl rfl rfl rfl, .ended rfl (.inr ha.isOver) ?_⟩
  refine ha.concluded rfl
    (List.mem_cons_of_mem _ (List.mem_cons_of_mem _ hmem)) fun _ hack => ?_
  rw [hack hwait] at hf
  cases hf

/-- The run has closed its connection, and its report is its result. -/
lemma Clear.closed {sentinel : Except StoreError Bool} {report : Report}
    (hg : Unguarded s store) (h : Clear s store r) (ha : Accounted s r sentinel report)
    (hmem : .reported report ∈ r.trail) :
    Clear s store (((r.closed s).note .released).finish
      (verdict (Report.failuresOf (r.pool.reports?.getD [])) sentinel report)) := by
  refine ⟨h.pool.of_eq rfl rfl ⟨0, rfl⟩ ?_, .ended rfl (.inr ha.isOver) ?_⟩
  · show (s.connection.close r.pool.store).2.Kept _ _ _
    rw [hg.connection]
    exact h.kept_close
  · refine ha.concluded rfl (List.mem_cons_of_mem _ hmem) fun _ _ => ?_
    obtain ⟨present, rfl⟩ := ha.sentinel_ok
    rw [h.pool.failures ha.isOver]
    rfl

/-- Every move of the run keeps it clear. -/
lemma Clear.advanced (hg : Unguarded s store) (h : Clear s store r) (hs : Advanced s r r') :
    Clear s store r' := by
  have hstanding := h.standing
  rw [Untroubled] at hstanding
  cases hs with
  | @refused x hp hdb =>
      rw [hp] at hstanding
      rw [hstanding.2, hg.database] at hdb
      cases hdb
  | crowded hp hdb hb =>
      rw [hp] at hstanding
      exact h.crowded hstanding.1 hb
  | @launch db hp hdb hb =>
      rw [hp] at hstanding
      rw [hstanding.2, hg.database] at hdb
      cases hdb
      exact .launch (r := r.did (.selected s.config.database)) hstanding.2 hg.unclosed hb
  | release hp =>
      rw [hp] at hstanding
      exact ⟨h.pool_of_eq rfl rfl rfl rfl, hstanding.of_eq rfl rfl rfl⟩
  | gathered hp hover =>
      rw [hp] at hstanding
      exact h.gathered hstanding hover
  | retired hp hover =>
      rw [hp] at hstanding
      exact ⟨h.pool_of_eq rfl rfl rfl rfl, hstanding.1.of_eq rfl rfl rfl, hstanding.2⟩
  | @overflowed db x hp hdb hx =>
      rw [hp] at hstanding
      rw [hstanding.1.database] at hdb
      cases hdb
      exact h.overflowed hstanding.1 hstanding.2 hx
  | @looked db report hp hdb hreport =>
      rw [hp] at hstanding
      rw [hstanding.1.database] at hdb
      cases hdb
      exact h.accounted hstanding.1 hstanding.2 hreport
  | unreported hp hf =>
      rw [hp] at hstanding
      exact h.unreported hstanding hf
  | reported hp ht =>
      rw [hp] at hstanding
      exact h.reported hstanding _
  | unacknowledged hp hf =>
      rw [hp] at hstanding
      exact h.unacknowledged hstanding.1 hstanding.2.1 hstanding.2.2 hf
  | acknowledged hp hf =>
      rw [hp] at hstanding
      obtain ⟨haccounted, hmem, -⟩ := hstanding
      exact ⟨h.pool_of_eq rfl rfl rfl rfl, haccounted.of_eq rfl rfl rfl,
        List.mem_cons_of_mem _ (List.mem_cons_of_mem _ hmem)⟩
  | @unclosed sentinel report x hp hc =>
      rw [hp] at hstanding
      rw [hg.connection] at hc
      -- an open store in memory closes without an error
      have hclose : (r.pool.store.close).1 = .error x := hc
      rw [Memory.close, hstanding.1.unclosed] at hclose
      cases hclose
  | closed hp hc =>
      rw [hp] at hstanding
      exact h.closed hg hstanding.1 hstanding.2

/-- A run with a database has begun, or its workers are gone. -/
lemma Untroubled.begun_or_isOver (h : Untroubled s store r) (hdb : r.database ≠ none) :
    Begun s r ∨ r.pool.isOver = true := by
  rw [Untroubled] at h
  cases hp : r.phase with
  | selecting =>
      rw [hp] at h
      exact absurd h.1 hdb
  | launched =>
      rw [hp] at h
      exact .inl h
  | gathering =>
      rw [hp] at h
      exact .inl h
  | retiring =>
      rw [hp] at h
      exact .inl h.1
  | checking =>
      rw [hp] at h
      exact .inl h.1
  | reporting sentinel report =>
      rw [hp] at h
      exact .inl h.toBegun
  | acknowledging sentinel report =>
      rw [hp] at h
      exact .inl h.1.toBegun
  | closing sentinel report =>
      rw [hp] at h
      exact .inl h.1.toBegun
  | ended o =>
      rw [hp] at h
      exact .inr (h.1.resolve_left hdb)

/-- An event of the pool keeps a run clear. -/
lemma Clear.movePool (hg : Unguarded s store) (h : Clear s store r)
    (hnow : r.pool.now < Duration.limit) {db : Database Memory} (hdb : r.database = some db)
    (d : Pool.Event) : Clear s store { r with pool := r.pool.step db d } := by
  have hs := Pool.stepped db r.pool d
  have hsome : r.database ≠ none := by
    rw [hdb]
    exact Option.some_ne_none db
  have hpool : (r.pool.step db d).Unopposed s.config.plan s.entropy s.config.database store ∧
      (r.pool.store.closed = false → (r.pool.step db d).store.closed = false) := by
    rcases h.standing.begun_or_isOver hsome with hb | hover
    · -- the pool works on the database of the run, which is open
      have hsame := hb.database
      rw [hdb] at hsame
      cases hsame
      obtain ⟨hpool, hopen⟩ := h.pool.stepped hg.refuses hb.unclosed hg.last_lt hnow hs
      exact ⟨hpool, fun _ => hopen⟩
    · refine ⟨h.pool.stepped_of_isOver hover hs, ?_⟩
      rw [(hs.of_isOver hover).2]
      exact id
  refine ⟨hpool.1, h.standing.aside (.pool db d) hpool.2 ?_⟩
  rintro (hnone | hover)
  · exact absurd hnone hsome
  · exact hs.of_isOver hover

/-- **Every event keeps a run clear**, as long as the time is one that a duration holds. -/
theorem Clear.stepped (hg : Unguarded s store) (h : Clear s store r)
    (hnow : r.pool.now < Duration.limit) (hs : Stepped s r e r') : Clear s store r' := by
  have haside {r' : Run Memory} (ha : Aside r r') (hplan : r'.pool.plan = r.pool.plan)
      (hworkers : r'.pool.workers = r.pool.workers) (htime : ∃ d, r'.pool.now = r.pool.now + d)
      (hstore : r'.pool.store = r.pool.store) : Clear s store r' :=
    ⟨h.pool.of_eq hplan hworkers htime (by rw [hstore]; exact h.pool.kept),
      h.standing.aside ha (by rw [hstore]; exact id) fun _ => ⟨hworkers, hstore⟩⟩
  have hs' := hs
  cases hs with
  | control hs => exact h.advanced hg hs
  | turn hdb => exact h.movePool hg hnow hdb _
  | interrupt hdb => exact h.movePool hg hnow hdb _
  | link i => exact haside (hs'.aside.resolve_left fun h => nomatch h.1) rfl rfl ⟨0, rfl⟩ rfl
  | ring ha hlimit hdue =>
      exact haside (hs'.aside.resolve_left fun h => nomatch h.1) (Pool.requestShutdown_plan _)
        (Pool.requestShutdown_workers _) ⟨0, Pool.requestShutdown_now _⟩
        (Pool.requestShutdown_store _)
  | cancel =>
      exact haside (hs'.aside.resolve_left fun h => nomatch h.1) (Pool.requestShutdown_plan _)
        (Pool.requestShutdown_workers _) ⟨0, Pool.requestShutdown_now _⟩
        (Pool.requestShutdown_store _)
  | tick d => exact haside (hs'.aside.resolve_left fun h => nomatch h.1) rfl rfl ⟨d, rfl⟩ rfl
  | idle => exact h

/-! ### The run as a whole -/

section Whole

variable {σ : Type} {s : Setting σ} {r r' : Run σ} {e : Event}

/-- The moves of a run take no time. -/
lemma Advanced.now (hs : Advanced s r r') : r'.pool.now = r.pool.now := by
  cases hs with
  | gathered hp hover => exact Pool.requestShutdown_now (r.pool.note .allJoined)
  | @overflowed db o hp hdb ho =>
      have hpool : ((r.looked s db).finish (.broken (.overflow o))).pool = _ := looked_pool s r db
      rw [hpool]
  | @looked db report hp hdb ho =>
      have hpool : ((r.looked s db).goTo
        (.reporting (db.keyExists s.config.sentinelKey r.pool.store).1 report)).pool = _ :=
        looked_pool s r db
      rw [hpool]
  | @reported sentinel report text hp ht => rw [putText_goTo_pool]
  | _ => rfl

/-- Time only goes on. -/
lemma Stepped.now (hs : Stepped s r e r') : ∃ d, r'.pool.now = r.pool.now + d := by
  cases hs with
  | control hs => exact ⟨0, hs.now⟩
  | turn hdb => exact (Pool.stepped _ r.pool _).now
  | interrupt hdb => exact (Pool.stepped _ r.pool _).now
  | link i => exact ⟨0, rfl⟩
  | ring ha hlimit hdue => exact ⟨0, Pool.requestShutdown_now _⟩
  | cancel => exact ⟨0, Pool.requestShutdown_now _⟩
  | tick d => exact ⟨d, rfl⟩
  | idle => exact ⟨0, rfl⟩

/-- A run has no more workers than it is to have. -/
lemma run_size_le (s : Setting σ) (store : σ) (events : List Event) :
    ((begin s store).run s events).pool.workers.size ≤ s.config.workers := by
  refine run_induction (P := fun r => r.pool.workers.size ≤ s.config.workers) ?_
    (Nat.zero_le _) events
  intro r r' e h hs
  rcases hs.pool with ⟨db, d, hpool⟩ | hspared | ⟨-, db, rfl⟩
  · rw [hpool, (Pool.stepped db r.pool d).size]
    exact h
  · rw [hspared.workers]
    exact h
  · show ((Array.range s.config.workers).map _).size ≤ _
    rw [Array.size_map, Array.size_range]

end Whole

/-- Every run that finds no guard is clear, as long as its time is one that a duration holds. -/
theorem run_clear (hg : Unguarded s store) {events : List Event}
    (hnow : ((begin s store).run s events).pool.now < Duration.limit) :
    Clear s store ((begin s store).run s events) := by
  refine run_induction (P := fun r => r.pool.now < Duration.limit → Clear s store r) ?_
    (fun _ => .begin s store) events hnow
  intro r r' e h hs hnow'
  obtain ⟨d, hd⟩ := hs.now
  have hbefore : r.pool.now < Duration.limit := by omega
  exact (h hbefore).stepped hg hbefore hs

/-- There is room for what the workers count together where there is room for all their iterations,
and for the time of the run as often as there are workers. -/
lemma Clear.fits (h : Clear s store r) (hsize : r.pool.workers.size ≤ s.config.workers)
    (hcount : s.config.workers * s.config.plan.last < Totals.counterLimit)
    (htime : s.config.workers * r.pool.now < Duration.limit) : r.pool.totals.Fits :=
  h.pool.fits (Nat.lt_of_le_of_lt (Nat.mul_le_mul_right _ hsize) hcount)
    (Nat.lt_of_le_of_lt (Nat.mul_le_mul_right _ hsize) htime)

/-- The end of a clear run. -/
lemma Clear.concluded (h : Clear s store r) {o : Outcome} (ho : r.outcome? = some o) :
    Concluded s r o := by
  have hstanding := h.standing
  rw [outcome?] at ho
  rw [Untroubled] at hstanding
  split at ho
  · rename_i o' hp
    rw [hp] at hstanding
    rw [← Option.some.inj ho]
    exact hstanding.2
  · cases ho

end Run

end StoreSoak
