import StoreSoak.Proofs.Run.Log

/-!
When a run closes its connection.

A run closes its connection at most once and does not use it afterwards. It ends without closing it
where there is no database of the index asked for, where it breaks down, where the report does not
go out, and where the operator is waited for and not heard; in no other case.

* `Unhindered`: nothing keeps a run with the given deeds from closing its connection.
* `Standing`: the invariant of a run, phase by phase; `Orderly.stepped` says that every event keeps
  it.
* `closed_once_iff`: a run has closed its connection exactly when it has ended unhindered, and then
  it has closed it once and last of all.
-/

namespace StoreSoak

namespace Run

variable {σ : Type}

/-- Nothing keeps a run with the given deeds from closing its connection: there is the database that
it asks for, its report goes out, and the operator is heard where he is waited for. -/
structure Unhindered (s : Setting σ) (store : σ) (trail : List Deed) : Prop where
  selected : ∃ db, s.connection.database s.config.database store = .ok db
  reported : ∀ report, .reported report ∈ trail → ∃ text, s.reporter report = .ok text
  acknowledged : ∀ report, .reported report ∈ trail → s.config.waitForAck = true →
    report.failures = [] → acknowledge s.input = .ok ()

/-! ### The invariant -/

/-- The connection is open: it was given a database and not closed. -/
structure Open (s : Setting σ) (store : σ) (r : Run (Logged σ)) : Prop where
  selected : ∃ db, s.connection.database s.config.database store = .ok db
  unclosed : .closed ∉ r.pool.store.log

/-- How the deeds and the log of a run stand in its phase. -/
def Standing (s : Setting σ) (store : σ) (r : Run (Logged σ)) : Prop :=
  match r.phase with
  | .selecting => r.database = none ∧ r.trail = [] ∧ r.pool.store = ⟨store, []⟩
  | .launched | .gathering => Open s store r ∧ ∀ t, .reported t ∉ r.trail
  | .retiring | .checking | .reporting _ _ =>
    Open s store r ∧ r.pool.isOver = true ∧ ∀ t, .reported t ∉ r.trail
  | .acknowledging _ report =>
    Open s store r ∧ r.pool.isOver = true ∧ (∀ t, .reported t ∈ r.trail ↔ t = report) ∧
      (∃ text, s.reporter report = .ok text) ∧ s.config.waitForAck = true ∧ report.failures = []
  | .closing _ _ => Open s store r ∧ r.pool.isOver = true ∧ Unhindered s store r.trail
  | .ended o =>
    (r.database = none ∨ r.pool.isOver = true) ∧
      ((.closed ∉ r.pool.store.log ∧ (Unhindered s store r.trail → ∃ b, o = .broken b)) ∨
        (∃ log, r.pool.store.log = .closed :: log ∧ .closed ∉ log ∧
          Unhindered s store r.trail ∧ ∀ b, o ≠ .broken b))

/-- The invariant of a run at a connection with a log. -/
structure Orderly (s : Setting σ) (store : σ) (r : Run (Logged σ)) : Prop where
  logged : ∀ db, r.database = some db → ∃ d : Database σ, db = d.logged
  standing : Standing s store r

/-- What happens to a run besides its own moves: its phase and its deeds stay, and the store is used
only by its workers as long as they are not gone. -/
structure Beside (r r' : Run (Logged σ)) : Prop where
  phase : r'.phase = r.phase
  database : r'.database = r.database
  trail : r'.trail = r.trail
  log : r'.pool.store.log = r.pool.store.log ∨
    ∃ s, r'.pool.store.log = .served s :: r.pool.store.log
  isOver : r.pool.isOver = true → r'.pool.isOver = true
  idle : r.database = none ∨ r.pool.isOver = true → r'.pool.store = r.pool.store

lemma Beside.closed_notMem {r r' : Run (Logged σ)} (h : Beside r r')
    (hr : .closed ∉ r.pool.store.log) : .closed ∉ r'.pool.store.log := by
  rcases h.log with hlog | ⟨x, hlog⟩
  · rwa [hlog]
  · rw [hlog, List.mem_cons]
    rintro (hx | hx)
    · cases hx
    · exact hr hx

section Orderly

variable {s : Setting σ} {store : σ} {r r' : Run (Logged σ)}

lemma Beside.open (h : Beside r r') (hr : Open s store r) : Open s store r' :=
  ⟨hr.selected, h.closed_notMem hr.unclosed⟩

/-- What happens besides the moves of the run keeps the invariant. -/
lemma Orderly.beside (h : Orderly s store r) (hb : Beside r r') : Orderly s store r' := by
  refine ⟨?_, ?_⟩
  · rw [hb.database]
    exact h.logged
  · have hstanding := h.standing
    rw [Standing] at hstanding ⊢
    rw [hb.phase, hb.trail, hb.database]
    cases hp : r.phase with
    | selecting =>
        rw [hp] at hstanding
        obtain ⟨hdb, htrail, hstore⟩ := hstanding
        exact ⟨hdb, htrail, (hb.idle (.inl hdb)).trans hstore⟩
    | launched =>
        rw [hp] at hstanding
        exact ⟨hb.open hstanding.1, hstanding.2⟩
    | gathering =>
        rw [hp] at hstanding
        exact ⟨hb.open hstanding.1, hstanding.2⟩
    | retiring =>
        rw [hp] at hstanding
        exact ⟨hb.open hstanding.1, hb.isOver hstanding.2.1, hstanding.2.2⟩
    | checking =>
        rw [hp] at hstanding
        exact ⟨hb.open hstanding.1, hb.isOver hstanding.2.1, hstanding.2.2⟩
    | reporting sentinel report =>
        rw [hp] at hstanding
        exact ⟨hb.open hstanding.1, hb.isOver hstanding.2.1, hstanding.2.2⟩
    | acknowledging sentinel report =>
        rw [hp] at hstanding
        exact ⟨hb.open hstanding.1, hb.isOver hstanding.2.1, hstanding.2.2⟩
    | closing sentinel report =>
        rw [hp] at hstanding
        exact ⟨hb.open hstanding.1, hb.isOver hstanding.2.1, hstanding.2.2⟩
    | ended o =>
        rw [hp] at hstanding
        obtain ⟨hidle, hlog⟩ := hstanding
        rw [hb.idle hidle]
        exact ⟨hidle.imp id hb.isOver, hlog⟩

/-- An event of the pool happens besides the moves of the run. -/
lemma Beside.pool {db : Database σ} {e : Pool.Event} (hdb : r.database = some db.logged) :
    Beside r { r with pool := r.pool.step db.logged e } := by
  have hs := Pool.stepped db.logged r.pool e
  refine ⟨rfl, rfl, rfl, hs.log, ?_, ?_⟩
  · intro hover
    show (r.pool.step db.logged e).workers.all Worker.isGone = true
    rw [(hs.of_isOver hover).1]
    exact hover
  · rintro (hnone | hover)
    · rw [hdb] at hnone
      cases hnone
    · exact (hs.of_isOver hover).2

/-- A change that leaves the workers and the store alone happens besides the moves of the run. -/
lemma Beside.of_eq (hphase : r'.phase = r.phase) (hdb : r'.database = r.database)
    (htrail : r'.trail = r.trail) (hworkers : r'.pool.workers = r.pool.workers)
    (hstore : r'.pool.store = r.pool.store) : Beside r r' := by
  refine ⟨hphase, hdb, htrail, .inl (by rw [hstore]), ?_, fun _ => hstore⟩
  intro hover
  rw [Pool.isOver, hworkers]
  exact hover

/-- A look for the sentinel key is noted, and no report with it. -/
lemma Open.looked (hr : Open s store r) {db : Database σ} :
    Open s store (r.looked s.logged db.logged) := by
  refine ⟨hr.selected, ?_⟩
  rw [looked_store]
  show .closed ∉ Access.lookedUp _ :: r.pool.store.log
  rw [List.mem_cons]
  rintro (hx | hx)
  · cases hx
  · exact hr.unclosed hx

lemma Orderly.logged_looked (h : Orderly s store r) (db : Database (Logged σ)) :
    ∀ db', (r.looked s.logged db).database = some db' → ∃ d : Database σ, db' = d.logged := by
  rw [looked_database]
  exact h.logged

/-- A connection that is closed for the first time. -/
lemma Orderly.closed (h : Orderly s store r) {sentinel : Except StoreError Bool} {report : Report}
    (hp : r.phase = .closing sentinel report) {o : Outcome} (ho : ∀ b, o ≠ .broken b)
    (hphase : r'.phase = .ended o) (hdb : r'.database = r.database)
    (hworkers : r'.pool.workers = r.pool.workers)
    (hlog : r'.pool.store.log = .closed :: r.pool.store.log)
    (htrail : r'.trail = .closed r.pool.now :: r.trail) : Orderly s store r' := by
  have hstanding := h.standing
  rw [Standing, hp] at hstanding
  obtain ⟨hopen, hover, hfree⟩ := hstanding
  refine ⟨by rw [hdb]; exact h.logged, ?_⟩
  rw [Standing, hphase]
  refine ⟨.inr ?_, .inr ⟨r.pool.store.log, hlog, hopen.unclosed, ?_, ho⟩⟩
  · rw [Pool.isOver, hworkers]
    exact hover
  · have hmem (t : Report) : .reported t ∈ r'.trail → .reported t ∈ r.trail := by
      rw [htrail, List.mem_cons]
      rintro (ht | ht)
      · cases ht
      · exact ht
    exact ⟨hfree.selected, fun t ht => hfree.reported t (hmem t ht),
      fun t ht => hfree.acknowledged t (hmem t ht)⟩

/-- A run that ends with its connection open was hindered, or it breaks down. -/
lemma Standing.unclosed {o : Outcome} (hphase : r'.phase = .ended o)
    (hidle : r'.database = none ∨ r'.pool.isOver = true) (hlog : .closed ∉ r'.pool.store.log)
    (hhindered : Unhindered s store r'.trail → ∃ b, o = .broken b) : Standing s store r' := by
  rw [Standing, hphase]
  exact ⟨hidle, .inl ⟨hlog, hhindered⟩⟩

/-- The workers of a run are launched. -/
lemma Orderly.launch (h : Orderly s store r) {db : Database (Logged σ)} (hp : r.phase = .selecting)
    (hdb : s.logged.connection.database s.config.database r.pool.store = .ok db) :
    Orderly s store ((r.did (.selected s.config.database)).launch s.logged db) := by
  have hstanding := h.standing
  rw [Standing, hp] at hstanding
  obtain ⟨-, htrail, hstore⟩ := hstanding
  have hdb' : (s.connection.database s.config.database r.pool.store.store).map Database.logged =
    .ok db := hdb
  rw [hstore] at hdb'
  cases hok : s.connection.database s.config.database store with
  | error e =>
      rw [hok] at hdb'
      cases hdb'
  | ok d =>
      rw [hok] at hdb'
      refine ⟨?_, ⟨⟨d, hok⟩, ?_⟩, ?_⟩
      · rintro db' hdb''
        cases hdb''
        cases hdb'
        exact ⟨d, rfl⟩
      · show .closed ∉ r.pool.store.log
        rw [hstore]
        exact List.not_mem_nil
      · show ∀ t, .reported t ∉ Deed.selected _ :: r.trail
        rw [htrail]
        intro t ht
        cases List.mem_singleton.mp ht

/-- The report of a run goes out. -/
lemma Orderly.reported (h : Orderly s store r) {sentinel : Except StoreError Bool}
    {report : Report} {text : String} (hp : r.phase = .reporting sentinel report)
    (ht : s.reporter report = .ok text) :
    Orderly s store ((r.putText report text).goTo
      (if s.config.waitForAck && report.failures.isEmpty then .acknowledging sentinel report
        else .closing sentinel report)) := by
  have hstanding := h.standing
  rw [Standing, hp] at hstanding
  obtain ⟨hopen, hover, hreports⟩ := hstanding
  have hdatabase : ∀ db, (r.putText report text).database = some db →
      ∃ d : Database σ, db = d.logged := by
    rw [putText_database]
    exact h.logged
  have hopen' : Open s store (r.putText report text) := by
    refine ⟨hopen.selected, ?_⟩
    rw [putText_pool]
    exact hopen.unclosed
  have hover' : (r.putText report text).pool.isOver = true := by
    rw [putText_pool]
    exact hover
  refine ⟨hdatabase, ?_⟩
  -- the operator is waited for, or the connection is closed at once
  by_cases hwait : (s.config.waitForAck && report.failures.isEmpty) = true
  · rw [if_pos hwait]
    rw [Bool.and_eq_true, List.isEmpty_iff] at hwait
    exact ⟨⟨hopen'.selected, hopen'.unclosed⟩, hover', mem_reported_iff hreports, ⟨text, ht⟩,
      hwait.1, hwait.2⟩
  · rw [if_neg hwait]
    refine ⟨⟨hopen'.selected, hopen'.unclosed⟩, hover', hopen'.selected, ?_, ?_⟩
    · intro t hmem
      rw [(mem_reported_iff hreports t).mp hmem]
      exact ⟨text, ht⟩
    · intro t hmem hack hnone
      rw [(mem_reported_iff hreports t).mp hmem] at hnone
      rw [Bool.and_eq_true, List.isEmpty_iff] at hwait
      exact absurd ⟨hack, hnone⟩ hwait

/-- A run without the database that it asks for ends with its connection open. -/
lemma Orderly.refused (h : Orderly s store r) {e : StoreError} (hp : r.phase = .selecting)
    (hdb : s.logged.connection.database s.config.database r.pool.store = .error e) :
    Orderly s store ((r.did (.selected s.config.database)).finish (.failed (.store e))) := by
  have hstanding := h.standing
  rw [Standing, hp] at hstanding
  obtain ⟨hnone, -, hstore⟩ := hstanding
  refine ⟨h.logged, .unclosed (by rfl) (.inl hnone) ?_ ?_⟩
  · show .closed ∉ r.pool.store.log
    rw [hstore]
    exact List.not_mem_nil
  · rintro ⟨⟨db, hok⟩, -, -⟩
    have hdb' : (s.connection.database s.config.database r.pool.store.store).map Database.logged =
        .error e := hdb
    rw [hstore, hok] at hdb'
    cases hdb'

lemma Orderly.crowded (h : Orderly s store r) (hp : r.phase = .selecting) (b : Breakdown) :
    Orderly s store ((r.did (.selected s.config.database)).finish (.broken b)) := by
  have hstanding := h.standing
  rw [Standing, hp] at hstanding
  obtain ⟨hnone, -, hstore⟩ := hstanding
  refine ⟨h.logged, .unclosed (by rfl) (.inl hnone) ?_ fun _ => ⟨b, rfl⟩⟩
  show .closed ∉ r.pool.store.log
  rw [hstore]
  exact List.not_mem_nil

lemma Orderly.gathered (h : Orderly s store r) (hp : r.phase = .gathering)
    (hover : r.pool.isOver = true) : Orderly s store r.gathered := by
  have hstanding := h.standing
  rw [Standing, hp] at hstanding
  refine ⟨h.logged, ⟨hstanding.1.selected, ?_⟩, (gathered_isOver r).trans hover, hstanding.2⟩
  show .closed ∉ (r.pool.note .allJoined).requestShutdown.store.log
  rw [Pool.requestShutdown_store]
  exact hstanding.1.unclosed

/-- After its look a run breaks down or goes on to its report. -/
lemma Orderly.overflowed (h : Orderly s store r) (hp : r.phase = .checking)
    {db : Database (Logged σ)} (hdb : r.database = some db) (b : Breakdown) :
    Orderly s store ((r.looked s.logged db).finish (.broken b)) := by
  have hstanding := h.standing
  rw [Standing, hp] at hstanding
  obtain ⟨hopen, hover, -⟩ := hstanding
  obtain ⟨d, rfl⟩ := h.logged db hdb
  exact ⟨h.logged_looked d.logged, .unclosed (by rfl)
    (.inr ((looked_isOver s.logged r d.logged).trans hover)) hopen.looked.unclosed
    fun _ => ⟨b, rfl⟩⟩

lemma Orderly.looked (h : Orderly s store r) (hp : r.phase = .checking)
    {db : Database (Logged σ)} (hdb : r.database = some db) (sentinel : Except StoreError Bool)
    (report : Report) :
    Orderly s store ((r.looked s.logged db).goTo (.reporting sentinel report)) := by
  have hstanding := h.standing
  rw [Standing, hp] at hstanding
  obtain ⟨hopen, hover, hreports⟩ := hstanding
  obtain ⟨d, rfl⟩ := h.logged db hdb
  exact ⟨h.logged_looked d.logged, ⟨hopen.selected, hopen.looked.unclosed⟩,
    (looked_isOver s.logged r d.logged).trans hover, reported_notMem_looked hreports⟩

/-- A run whose report does not go out is hindered by that. -/
lemma Orderly.unreported (h : Orderly s store r) {sentinel : Except StoreError Bool}
    {report : Report} {f : IoFault} (hp : r.phase = .reporting sentinel report)
    (hf : s.reporter report = .error f) :
    Orderly s store ((r.did (.reported report)).finish (.failed (.io f))) := by
  have hstanding := h.standing
  rw [Standing, hp] at hstanding
  obtain ⟨hopen, hover, -⟩ := hstanding
  refine ⟨h.logged, .unclosed (by rfl) (.inr hover) hopen.unclosed fun hfree => ?_⟩
  obtain ⟨text, ht⟩ := hfree.reported report List.mem_cons_self
  rw [ht] at hf
  cases hf

/-- A run whose operator is not heard is hindered by that. -/
lemma Orderly.unacknowledged (h : Orderly s store r) {sentinel : Except StoreError Bool}
    {report : Report} {f : IoFault} (hp : r.phase = .acknowledging sentinel report)
    (hf : acknowledge s.input = .error f) :
    Orderly s store (((r.did (.printed prompt)).did .awaited).finish (.failed (.io f))) := by
  have hstanding := h.standing
  rw [Standing, hp] at hstanding
  obtain ⟨hopen, hover, hreport, -, hwait, hnone⟩ := hstanding
  refine ⟨h.logged, .unclosed (by rfl) (.inr hover) hopen.unclosed fun hfree => ?_⟩
  have hmem : .reported report ∈ Deed.awaited :: .printed prompt :: r.trail :=
    List.mem_cons_of_mem _ (List.mem_cons_of_mem _ ((hreport report).mpr rfl))
  rw [hfree.acknowledged report hmem hwait hnone] at hf
  cases hf

lemma Orderly.acknowledged (h : Orderly s store r) {sentinel : Except StoreError Bool}
    {report : Report} (hp : r.phase = .acknowledging sentinel report)
    (hf : acknowledge s.input = .ok ()) :
    Orderly s store
      (((r.did (.printed prompt)).did .awaited).goTo (.closing sentinel report)) := by
  have hstanding := h.standing
  rw [Standing, hp] at hstanding
  obtain ⟨hopen, hover, hreport, htext, -, -⟩ := hstanding
  have hmem (t : Report) (ht : .reported t ∈ Deed.awaited :: .printed prompt :: r.trail) :
      t = report := by
    simp only [List.mem_cons, reduceCtorEq, false_or] at ht
    exact (hreport t).mp ht
  refine ⟨h.logged, ⟨hopen.selected, hopen.unclosed⟩, hover, hopen.selected, ?_, ?_⟩
  · intro t ht
    rw [hmem t ht]
    exact htext
  · intro t ht _ _
    exact hf

/-- A run that comes to a verdict finishes with its report, or fails. -/
lemma verdict_cases (failures : List WorkerError) (sentinel : Except StoreError Bool)
    (report : Report) :
    verdict failures sentinel report = .finished report ∨
      ∃ e, verdict failures sentinel report = .failed e := by
  unfold verdict
  split
  · exact .inr ⟨_, rfl⟩
  · split
    · exact .inr ⟨_, rfl⟩
    · exact .inl rfl

lemma verdict_ne_broken (failures : List WorkerError) (sentinel : Except StoreError Bool)
    (report : Report) (b : Breakdown) : verdict failures sentinel report ≠ .broken b := by
  obtain h | ⟨e, h⟩ := verdict_cases failures sentinel report <;> rw [h] <;> nofun

/-- Every move of the run keeps the invariant. -/
lemma Orderly.advanced (h : Orderly s store r) (hs : Advanced s.logged r r') :
    Orderly s store r' := by
  have hstanding := h.standing
  rw [Standing] at hstanding
  cases hs with
  | refused hp hdb => exact h.refused hp hdb
  | crowded hp hdb hb => exact h.crowded hp _
  | launch hp hdb hb => exact h.launch hp hdb
  | release hp =>
      rw [hp] at hstanding
      exact ⟨h.logged, ⟨hstanding.1.selected, hstanding.1.unclosed⟩, hstanding.2⟩
  | gathered hp hover => exact h.gathered hp hover
  | retired hp hover =>
      rw [hp] at hstanding
      exact ⟨h.logged, ⟨hstanding.1.selected, hstanding.1.unclosed⟩, hstanding.2⟩
  | overflowed hp hdb ho => exact h.overflowed hp hdb _
  | looked hp hdb ho => exact h.looked hp hdb _ _
  | unreported hp hf => exact h.unreported hp hf
  | reported hp ht => exact h.reported hp ht
  | unacknowledged hp hf => exact h.unacknowledged hp hf
  | acknowledged hp hf => exact h.acknowledged hp hf
  | @unclosed _ _ e hp hc =>
      exact h.closed hp (o := .failed (.store e)) nofun rfl rfl rfl rfl rfl
  | closed hp hc => exact h.closed hp (verdict_ne_broken _ _ _) rfl rfl rfl rfl rfl

/-- Every event keeps the invariant. -/
theorem Orderly.stepped (h : Orderly s store r) {e : Event} (hs : Stepped s.logged r e r') :
    Orderly s store r' := by
  cases hs with
  | control hs => exact h.advanced hs
  | @turn i db hdb =>
      obtain ⟨d, rfl⟩ := h.logged db hdb
      exact h.beside (.pool hdb)
  | @interrupt i db hdb =>
      obtain ⟨d, rfl⟩ := h.logged db hdb
      exact h.beside (.pool hdb)
  | link i => exact h.beside (.of_eq rfl rfl rfl rfl rfl)
  | ring ha hl hdue =>
      exact h.beside (.of_eq rfl rfl rfl (Pool.requestShutdown_workers _)
        (Pool.requestShutdown_store _))
  | cancel =>
      exact h.beside (.of_eq rfl rfl rfl (Pool.requestShutdown_workers _)
        (Pool.requestShutdown_store _))
  | tick d => exact h.beside (.of_eq rfl rfl rfl rfl rfl)
  | idle => exact h

end Orderly

/-! ### The end -/

/-- A run has come to its end in order: it did not break down, and nothing hindered it. -/
def EndedUnhindered (s : Setting σ) (store : σ) (r : Run σ) : Prop :=
  ∃ o, r.outcome? = some o ∧ (∀ b, o ≠ .broken b) ∧ Unhindered s store r.trail

/-- Either the connection is not closed and the run has not ended unhindered, or both is so and the
log ends there. -/
lemma Standing.closed_or {s : Setting σ} {store : σ} {r : Run σ} {log : List Access}
    (h : Standing s store (r.logged log)) :
    (.closed ∉ log ∧ ¬ EndedUnhindered s store r) ∨
      ∃ log', log = .closed :: log' ∧ .closed ∉ log' ∧ EndedUnhindered s store r := by
  -- a run that goes on has not ended unhindered
  have hunended (hopen : .closed ∉ log) (hphase : r.outcome? = none) :
      .closed ∉ log ∧ ¬ EndedUnhindered s store r := by
    refine ⟨hopen, ?_⟩
    rintro ⟨o, ho, -⟩
    rw [hphase] at ho
    cases ho
  rw [Standing] at h
  have hp : (r.logged log).phase = r.phase := rfl
  rw [hp] at h
  cases hphase : r.phase with
  | selecting =>
      rw [hphase] at h
      have hlog : log = [] := congrArg Logged.log h.2.2
      exact .inl (hunended (by rw [hlog]; exact List.not_mem_nil) (by rw [outcome?, hphase]))
  | ended o =>
      rw [hphase] at h
      have ho : r.outcome? = some o := by rw [outcome?, hphase]
      rcases h.2 with ⟨hopen, hhindered⟩ | ⟨log', hlog, hopen, hfree, hbroken⟩
      · refine .inl ⟨hopen, ?_⟩
        rintro ⟨o', ho', hbroken, hfree⟩
        obtain ⟨b, hb⟩ := hhindered hfree
        rw [ho] at ho'
        exact hbroken b ((Option.some.inj ho').symm.trans hb)
      · exact .inr ⟨log', hlog, hopen, o, ho, hbroken, hfree⟩
  | _ =>
      rw [hphase] at h
      exact .inl (hunended h.1.unclosed (by rw [outcome?, hphase]))

/-- **A run closes its connection once and last of all exactly when it ends unhindered**; every
other run leaves it open. At no moment was the connection closed twice, or used after it was
closed. -/
theorem closed_once_iff (s : Setting σ) (store : σ) (events : List Event) :
    (.closed ∈ uses s store events ↔ EndedUnhindered s store ((begin s store).run s events)) ∧
      (uses s store events).count .closed ≤ 1 ∧
      ∀ before after, uses s store events = before ++ .closed :: after → after = [] := by
  -- the invariant is kept by the run that logs what is asked of its store
  have hbegin : Orderly s store (begin s.logged ⟨store, []⟩) :=
    ⟨fun db hdb => absurd hdb (by simp [begin]), rfl, rfl, rfl⟩
  have horderly := run_induction (P := Orderly s store) (fun h hs => h.stepped hs) hbegin events
  obtain ⟨log, hlog⟩ := run_logged s (begin s store) [] events
  have hstart : (begin s store).logged [] = begin s.logged ⟨store, []⟩ := rfl
  rw [hstart] at hlog
  rw [hlog] at horderly
  have huses : uses s store events = log.reverse := by
    rw [uses, hlog]
    rfl
  rw [huses, List.mem_reverse]
  rcases horderly.standing.closed_or with ⟨hopen, hnot⟩ | ⟨log', rfl, hopen, hended⟩
  · refine ⟨⟨fun h => absurd h hopen, fun h => absurd h hnot⟩, ?_, ?_⟩
    · rw [List.count_reverse, List.count_eq_zero.mpr hopen]
      exact Nat.zero_le 1
    · intro before after h
      refine absurd ?_ hopen
      rw [← List.mem_reverse, h]
      exact List.mem_append_right before List.mem_cons_self
  · refine ⟨⟨fun _ => hended, fun _ => List.mem_cons_self⟩, ?_, ?_⟩
    · rw [List.count_reverse, List.count_cons_self, List.count_eq_zero.mpr hopen]
    · intro before after h
      rw [List.reverse_cons] at h
      rcases List.eq_nil_or_concat after with rfl | ⟨after', x, rfl⟩
      · rfl
      · refine absurd ?_ hopen
        rw [List.concat_eq_append, ← List.cons_append, ← List.append_assoc] at h
        rw [← List.mem_reverse, (List.append_inj' h rfl).1]
        exact List.mem_append_right before List.mem_cons_self

/-- A run whose report does not go out ends with its connection open. -/
theorem open_after_faulty_reporter :
    let fault : IoFault := ⟨.other, some "disk full"⟩
    let s : Setting Memory :=
      { config := { workers := 1, maxIterations := 1, seed := some 7, chains := .fixed 0 }
        processors := 1
        entropy := fun _ => Generator.ofSeed 0
        connection := Memory.connection
        reporter := fun _ => .error fault
        input := [] }
    let events := [.control, .control, .turn 0, .turn 0, .turn 0, .control, .control, .control,
      .control]
    ((begin s Memory.fresh).run s events).outcome? = some (.failed (.io fault)) ∧
      uses s Memory.fresh events = [.lookedUp Config.defaultSentinelKey] := by
  decide +kernel

end Run

end StoreSoak
