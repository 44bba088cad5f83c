import StoreSoak.Proofs.Pool.Reports
import StoreSoak.Proofs.Run.Closing

/-!
The order in which a run does what it does.

A run looks for the sentinel key when nobody works any more, then puts its report out, waits for the
operator where that is asked for and nothing failed, and closes the connection. It may end early,
but it never does one of these things twice or before another one.

* `deeds` are the deeds of a run in the order of time, apart from what it prints, and `InOrder`
  lists all that they can be.
* `Course`: the invariant of a run, phase by phase; `Course.stepped` says that every event keeps it.
* `Noted`: the store has seen the calls of the workers and then the deeds of the run.
* `Looks` is the moment at which a run looks for the sentinel key, and `Bound` says that its report
  is made at that moment.
* `run_in_order` puts these together.
-/

namespace StoreSoak

namespace Deed

/-- Whether a deed is more than a print. -/
def isMark : Deed → Bool
  | .printed _ => false
  | _ => true

/-- The use of the connection that a deed is. -/
def access? : Deed → Option Access
  | .lookedUp key _ => some (.lookedUp key)
  | .closed _ => some .closed
  | _ => none

end Deed

namespace Run

variable {σ : Type}

/-- What a run has done in the order of time, apart from what it has printed. -/
def deeds (r : Run σ) : List Deed :=
  r.trail.reverse.filter Deed.isMark

section Deeds

variable {r r' : Run σ} {d : Deed}

lemma mem_deeds (hd : d.isMark = true) : d ∈ r.deeds ↔ d ∈ r.trail := by
  rw [deeds, List.mem_filter, List.mem_reverse, and_iff_left hd]

lemma deeds_of_eq (htrail : r'.trail = r.trail) : r'.deeds = r.deeds := by
  rw [deeds, htrail, deeds]

lemma deeds_of_mark (htrail : r'.trail = d :: r.trail) (hd : d.isMark = true) :
    r'.deeds = r.deeds ++ [d] := by
  rw [deeds, htrail, List.reverse_cons, List.filter_append, List.filter_singleton, hd, deeds]
  rfl

/-- A print leaves the deeds as they are. -/
lemma deeds_of_printed {line : String} (htrail : r'.trail = .printed line :: r.trail) :
    r'.deeds = r.deeds := by
  rw [deeds, htrail, List.reverse_cons, List.filter_append, List.filter_singleton, deeds]
  exact List.append_nil _

lemma looked_deeds (s : Setting σ) (r : Run σ) (db : Database σ) :
    (r.looked s db).deeds = r.deeds ++ [.lookedUp s.config.sentinelKey r.pool.now] := by
  rw [looked]
  dsimp only
  split
  · exact (deeds_of_printed rfl).trans (deeds_of_mark rfl rfl)
  · exact deeds_of_mark rfl rfl

lemma putText_deeds (r : Run σ) (report : Report) (text : String) :
    (r.putText report text).deeds = r.deeds ++ [.reported report] := by
  rw [putText]
  split
  · exact deeds_of_mark rfl rfl
  · exact (deeds_of_printed rfl).trans (deeds_of_mark rfl rfl)

lemma deeds_of_awaited (htrail : r'.trail = .awaited :: .printed prompt :: r.trail) :
    r'.deeds = r.deeds ++ [.awaited] := by
  have hmark : r'.deeds = (r.did (.printed prompt)).deeds ++ [.awaited] := deeds_of_mark htrail rfl
  rw [hmark, deeds_of_printed rfl]

end Deeds

/-! ### The deeds in order -/

/-- Between its report and the end of the connection a run waits for the operator, where that is
asked for and no worker has failed. -/
def acknowledgment (s : Setting σ) (report : Report) : List Deed :=
  if s.config.waitForAck && report.failures.isEmpty then [.awaited] else []

/-- What a run can have done so far, in the order of time. -/
inductive InOrder (s : Setting σ) : List Deed → Prop where
  | begun : InOrder s []
  | selected : InOrder s [.selected s.config.database]
  | lookedUp (now : ℕ) :
      InOrder s [.selected s.config.database, .lookedUp s.config.sentinelKey now]
  | reported (now : ℕ) (report : Report) :
      InOrder s
        [.selected s.config.database, .lookedUp s.config.sentinelKey now, .reported report]
  /-- The operator is waited for only after a report that went out and tells of no failure. -/
  | awaited (now : ℕ) {report : Report} {text : String} (ht : s.reporter report = .ok text)
      (hwait : s.config.waitForAck = true) (hnone : report.failures = []) :
      InOrder s
        [.selected s.config.database, .lookedUp s.config.sentinelKey now, .reported report,
          .awaited]
  /-- The connection is closed only after a report that went out. -/
  | closed (now : ℕ) {report : Report} {text : String} (ht : s.reporter report = .ok text)
      (now' : ℕ) :
      InOrder s
        ([.selected s.config.database, .lookedUp s.config.sentinelKey now, .reported report] ++
          acknowledgment s report ++ [.closed now'])

/-- The workers of a run are all there, and gone. -/
structure Gone (s : Setting σ) (r : Run σ) : Prop where
  size : r.pool.workers.size = s.config.workers
  isOver : r.pool.isOver = true

/-- How the deeds of a run stand in its phase. -/
def Course (s : Setting σ) (r : Run σ) : Prop :=
  match r.phase with
  | .selecting => r.database = none ∧ r.deeds = []
  | .launched | .gathering =>
    r.pool.workers.size = s.config.workers ∧ r.deeds = [.selected s.config.database]
  | .retiring => Gone s r ∧ r.deeds = [.selected s.config.database]
  | .checking =>
    Gone s r ∧ r.pressure.isOver = true ∧ r.deeds = [.selected s.config.database]
  | .reporting _ _ =>
    Gone s r ∧ ∃ now, r.deeds =
      [.selected s.config.database, .lookedUp s.config.sentinelKey now]
  | .acknowledging _ report =>
    Gone s r ∧ (∃ text, s.reporter report = .ok text) ∧
      (s.config.waitForAck && report.failures.isEmpty) = true ∧ ∃ now, r.deeds =
        [.selected s.config.database, .lookedUp s.config.sentinelKey now, .reported report]
  | .closing _ report =>
    Gone s r ∧ (∃ text, s.reporter report = .ok text) ∧ ∃ now, r.deeds =
      [.selected s.config.database, .lookedUp s.config.sentinelKey now, .reported report] ++
        acknowledgment s report
  | .ended o =>
    (r.database = none ∨ Gone s r) ∧ InOrder s r.deeds ∧
      ∀ report, o = .finished report → .reported report ∈ r.deeds

section Course

variable {s : Setting σ} {r r' : Run σ} {e : Event}

lemma Course.inOrder (h : Course s r) : InOrder s r.deeds := by
  rw [Course] at h
  cases hp : r.phase with
  | selecting =>
      rw [hp] at h
      rw [h.2]
      exact .begun
  | launched =>
      rw [hp] at h
      rw [h.2]
      exact .selected
  | gathering =>
      rw [hp] at h
      rw [h.2]
      exact .selected
  | retiring =>
      rw [hp] at h
      rw [h.2]
      exact .selected
  | checking =>
      rw [hp] at h
      rw [h.2.2]
      exact .selected
  | reporting sentinel report =>
      rw [hp] at h
      obtain ⟨-, now, hdeeds⟩ := h
      rw [hdeeds]
      exact .lookedUp now
  | acknowledging sentinel report =>
      rw [hp] at h
      obtain ⟨-, -, -, now, hdeeds⟩ := h
      rw [hdeeds]
      exact .reported now report
  | closing sentinel report =>
      rw [hp] at h
      obtain ⟨-, ⟨text, ht⟩, now, hdeeds⟩ := h
      rw [hdeeds, acknowledgment]
      split
      · rename_i hwait
        rw [Bool.and_eq_true, List.isEmpty_iff] at hwait
        exact .awaited now ht hwait.1 hwait.2
      · exact .reported now report
  | ended o =>
      rw [hp] at h
      exact h.2.1

/-- What happens to a run besides its own moves. -/
structure Aside (r r' : Run σ) : Prop where
  phase : r'.phase = r.phase
  database : r'.database = r.database
  trail : r'.trail = r.trail
  size : r'.pool.workers.size = r.pool.workers.size
  isOver : r.pool.isOver = true → r'.pool.isOver = true
  retired : r.pressure.isOver = true → r'.pressure.isOver = true

lemma Aside.of_eq (hphase : r'.phase = r.phase) (hdb : r'.database = r.database)
    (htrail : r'.trail = r.trail) (hworkers : r'.pool.workers = r.pool.workers)
    (hpressure : r'.pressure = r.pressure) : Aside r r' := by
  refine ⟨hphase, hdb, htrail, by rw [hworkers], ?_, by rw [hpressure]; exact id⟩
  rw [Pool.isOver, Pool.isOver, hworkers]
  exact id

/-- An event of the pool happens besides the moves of the run. -/
lemma Aside.pool (db : Database σ) (e : Pool.Event) :
    Aside r { r with pool := r.pool.step db e } := by
  have hs := Pool.stepped db r.pool e
  refine ⟨rfl, rfl, rfl, hs.size, fun hover => ?_, id⟩
  show (r.pool.step db e).workers.all Worker.isGone = true
  rw [(hs.of_isOver hover).1]
  exact hover

/-- Every event is a move of the run or happens besides its moves. -/
lemma Stepped.aside (hs : Stepped s r e r') : e = .control ∧ Advanced s r r' ∨ Aside r r' := by
  cases hs with
  | control hs => exact .inl ⟨rfl, hs⟩
  | turn hdb => exact .inr (.pool _ _)
  | interrupt hdb => exact .inr (.pool _ _)
  | link i =>
      refine .inr ⟨rfl, rfl, rfl, rfl, id, fun hover => ?_⟩
      -- where no link is left there is none to go on
      have hempty : r.pressure.links = #[] := Array.isEmpty_iff.mp hover
      show (r.pressure.step r.pool.signals.shutdown i).1.isOver = true
      rw [Pressure.step, hempty]
      exact hover
  | @ring due limit ha hl hdue =>
      exact .inr (.of_eq rfl rfl rfl
        (Pool.requestShutdown_workers (r.pool.note (.deadlineReached limit))) rfl)
  | cancel => exact .inr (.of_eq rfl rfl rfl (Pool.requestShutdown_workers _) rfl)
  | tick d => exact .inr (.of_eq rfl rfl rfl rfl rfl)
  | idle => exact .inr (.of_eq rfl rfl rfl rfl rfl)

lemma Gone.aside (h : Gone s r) (ha : Aside r r') : Gone s r' :=
  ⟨ha.size.trans h.size, ha.isOver h.isOver⟩

/-- What happens besides the moves of the run keeps to the course. -/
lemma Course.aside (h : Course s r) (ha : Aside r r') : Course s r' := by
  have hdeeds : r'.deeds = r.deeds := deeds_of_eq ha.trail
  rw [Course] at h ⊢
  rw [ha.phase, ha.database, hdeeds]
  cases hp : r.phase with
  | selecting =>
      rw [hp] at h
      exact h
  | launched =>
      rw [hp] at h
      exact ⟨ha.size.trans h.1, h.2⟩
  | gathering =>
      rw [hp] at h
      exact ⟨ha.size.trans h.1, h.2⟩
  | retiring =>
      rw [hp] at h
      exact ⟨h.1.aside ha, h.2⟩
  | checking =>
      rw [hp] at h
      exact ⟨h.1.aside ha, ha.retired h.2.1, h.2.2⟩
  | reporting sentinel report =>
      rw [hp] at h
      exact ⟨h.1.aside ha, h.2⟩
  | acknowledging sentinel report =>
      rw [hp] at h
      exact ⟨h.1.aside ha, h.2⟩
  | closing sentinel report =>
      rw [hp] at h
      exact ⟨h.1.aside ha, h.2⟩
  | ended o =>
      rw [hp] at h
      exact ⟨h.1.imp id fun hgone => hgone.aside ha, h.2⟩

/-- A run that ends without a report of its own. -/
lemma Course.ended {o : Outcome} (hphase : r'.phase = .ended o)
    (hgone : r'.database = none ∨ Gone s r') (horder : InOrder s r'.deeds)
    (ho : ∀ report, o = .finished report → .reported report ∈ r'.deeds) : Course s r' := by
  rw [Course, hphase]
  exact ⟨hgone, horder, ho⟩

/-- The connection is closed, however that goes. -/
lemma Course.close {sentinel : Except StoreError Bool} {report : Report} {o : Outcome}
    (h : Course s r) (hp : r.phase = .closing sentinel report) (hphase : r'.phase = .ended o)
    (hworkers : r'.pool.workers = r.pool.workers)
    (htrail : r'.trail = .closed r.pool.now :: r.trail)
    (ho : ∀ t, o = .finished t → t = report) : Course s r' := by
  rw [Course, hp] at h
  obtain ⟨hgone, ⟨text, ht⟩, now, hdeeds⟩ := h
  have hdeeds' := deeds_of_mark htrail rfl
  rw [hdeeds] at hdeeds'
  refine .ended hphase (.inr ⟨by rw [hworkers]; exact hgone.size, ?_⟩) ?_ ?_
  · rw [Pool.isOver, hworkers]
    exact hgone.isOver
  · rw [hdeeds']
    exact .closed now ht _
  · intro t hfinished
    rw [hdeeds', ho t hfinished]
    simp

/-- A run that ends before its launch has asked for its database and done nothing else. -/
lemma Course.unlaunched (h : Course s r) (hp : r.phase = .selecting) {o : Outcome}
    (ho : ∀ t, o ≠ .finished t) :
    Course s ((r.did (.selected s.config.database)).finish o) := by
  rw [Course, hp] at h
  have hdeeds : ((r.did (.selected s.config.database)).finish o).deeds =
      [.selected s.config.database] := by
    rw [deeds_of_mark (r := r) rfl rfl, h.2]
    rfl
  exact .ended rfl (.inl h.1) (hdeeds ▸ .selected) fun t hfinished => absurd hfinished (ho t)

lemma Course.launch (h : Course s r) (hp : r.phase = .selecting) (db : Database σ) :
    Course s ((r.did (.selected s.config.database)).launch s db) := by
  rw [Course, hp] at h
  refine ⟨?_, ?_⟩
  · show ((Array.range s.config.workers).map _).size = _
    rw [Array.size_map, Array.size_range]
  · rw [deeds_of_mark (r := r) rfl rfl, h.2]
    rfl

lemma Course.gathered (h : Course s r) (hp : r.phase = .gathering) (hover : r.pool.isOver = true) :
    Course s r.gathered := by
  rw [Course, hp] at h
  have hworkers : r.gathered.pool.workers = r.pool.workers :=
    Pool.requestShutdown_workers (r.pool.note .allJoined)
  exact ⟨⟨by rw [hworkers]; exact h.1, (gathered_isOver r).trans hover⟩, h.2⟩

lemma Gone.looked (h : Gone s r) (db : Database σ) : Gone s (r.looked s db) :=
  ⟨(congrArg Array.size (looked_workers s r db)).trans h.size,
    (looked_isOver s r db).trans h.isOver⟩

lemma Course.looked (h : Course s r) (hp : r.phase = .checking) (db : Database σ)
    (sentinel : Except StoreError Bool) (report : Report) :
    Course s ((r.looked s db).goTo (.reporting sentinel report)) := by
  rw [Course, hp] at h
  obtain ⟨hgone, -, hdeeds⟩ := h
  refine ⟨⟨(hgone.looked db).size, (hgone.looked db).isOver⟩, r.pool.now, ?_⟩
  show (r.looked s db).deeds = _
  rw [looked_deeds, hdeeds]
  rfl

/-- The look has been made also where its run cannot make a report. -/
lemma Course.overflowed (h : Course s r) (hp : r.phase = .checking) (db : Database σ) {o : Outcome}
    (ho : ∀ t, o ≠ .finished t) : Course s ((r.looked s db).finish o) := by
  rw [Course, hp] at h
  obtain ⟨hgone, -, hdeeds⟩ := h
  refine .ended rfl (.inr ⟨(hgone.looked db).size, (hgone.looked db).isOver⟩) ?_
    fun t hfinished => absurd hfinished (ho t)
  show InOrder s (r.looked s db).deeds
  rw [looked_deeds, hdeeds]
  exact .lookedUp _

lemma Course.unreported {sentinel : Except StoreError Bool} {report : Report} {f : IoFault}
    (h : Course s r) (hp : r.phase = .reporting sentinel report) :
    Course s ((r.did (.reported report)).finish (.failed (.io f))) := by
  rw [Course, hp] at h
  obtain ⟨hgone, now, hdeeds⟩ := h
  refine .ended rfl (.inr ⟨hgone.size, hgone.isOver⟩) ?_ fun t ho => by cases ho
  rw [deeds_of_mark (r := r) rfl rfl, hdeeds]
  exact .reported now report

/-- After its report a run waits for the operator or goes on to close the connection. -/
lemma Course.reported {sentinel : Except StoreError Bool} {report : Report} {text : String}
    (h : Course s r) (hp : r.phase = .reporting sentinel report)
    (ht : s.reporter report = .ok text) :
    Course s ((r.putText report text).goTo
      (if s.config.waitForAck && report.failures.isEmpty then .acknowledging sentinel report
        else .closing sentinel report)) := by
  rw [Course, hp] at h
  obtain ⟨hgone, now, hdeeds⟩ := h
  have hpool := putText_pool r report text
  have hgone' : Gone s (r.putText report text) :=
    ⟨by rw [hpool]; exact hgone.size, by rw [hpool]; exact hgone.isOver⟩
  have hdeeds' : (r.putText report text).deeds = [.selected s.config.database,
      .lookedUp s.config.sentinelKey now, .reported report] := by
    rw [putText_deeds, hdeeds]
    rfl
  by_cases hwait : (s.config.waitForAck && report.failures.isEmpty) = true
  · rw [if_pos hwait]
    exact ⟨⟨hgone'.size, hgone'.isOver⟩, ⟨text, ht⟩, hwait, now, hdeeds'⟩
  · rw [if_neg hwait]
    refine ⟨⟨hgone'.size, hgone'.isOver⟩, ⟨text, ht⟩, now, ?_⟩
    rw [acknowledgment, if_neg hwait, List.append_nil]
    exact hdeeds'

lemma Course.unacknowledged {sentinel : Except StoreError Bool} {report : Report} {f : IoFault}
    (h : Course s r) (hp : r.phase = .acknowledging sentinel report) :
    Course s (((r.did (.printed prompt)).did .awaited).finish (.failed (.io f))) := by
  rw [Course, hp] at h
  obtain ⟨hgone, ⟨text, ht⟩, hwait, now, hdeeds⟩ := h
  rw [Bool.and_eq_true, List.isEmpty_iff] at hwait
  refine .ended rfl (.inr ⟨hgone.size, hgone.isOver⟩) ?_ fun t ho => by cases ho
  rw [deeds_of_awaited (r := r) rfl, hdeeds]
  exact .awaited now ht hwait.1 hwait.2

lemma Course.acknowledged {sentinel : Except StoreError Bool} {report : Report}
    (h : Course s r) (hp : r.phase = .acknowledging sentinel report) :
    Course s (((r.did (.printed prompt)).did .awaited).goTo (.closing sentinel report)) := by
  rw [Course, hp] at h
  obtain ⟨hgone, htext, hwait, now, hdeeds⟩ := h
  refine ⟨⟨hgone.size, hgone.isOver⟩, htext, now, ?_⟩
  rw [deeds_of_awaited (r := r) rfl, hdeeds, acknowledgment, if_pos hwait]

/-- A run finishes with the report that it has. -/
lemma eq_of_verdict {failures : List WorkerError} {sentinel : Except StoreError Bool}
    {report t : Report} (h : verdict failures sentinel report = .finished t) : t = report := by
  obtain hfinished | ⟨e, hfailed⟩ := verdict_cases failures sentinel report
  · exact Outcome.finished.inj (h.symm.trans hfinished)
  · rw [hfailed] at h
    cases h

/-- Every move of the run keeps to the course. -/
lemma Course.advanced (h : Course s r) (hs : Advanced s r r') : Course s r' := by
  cases hs with
  | refused hp hdb => exact h.unlaunched hp nofun
  | crowded hp hdb hb => exact h.unlaunched hp nofun
  | launch hp hdb hb => exact h.launch hp _
  | release hp =>
      rw [Course, hp] at h
      exact h
  | gathered hp hover => exact h.gathered hp hover
  | retired hp hover =>
      rw [Course, hp] at h
      exact ⟨⟨h.1.size, h.1.isOver⟩, hover, h.2⟩
  | overflowed hp hdb ho => exact h.overflowed hp _ nofun
  | looked hp hdb ho => exact h.looked hp _ _ _
  | unreported hp hf => exact h.unreported hp
  | reported hp ht => exact h.reported hp ht
  | unacknowledged hp hf => exact h.unacknowledged hp
  | acknowledged hp hf => exact h.acknowledged hp
  | unclosed hp hc => exact h.close hp rfl rfl rfl nofun
  | closed hp hc => exact h.close hp rfl rfl rfl fun t => eq_of_verdict

/-- **Every event keeps a run on its course.** -/
theorem Course.stepped (h : Course s r) (hs : Stepped s r e r') : Course s r' := by
  rcases hs.aside with ⟨-, hs⟩ | ha
  · exact h.advanced hs
  · exact h.aside ha

lemma Course.begin (s : Setting σ) (store : σ) : Course s (begin s store) :=
  ⟨rfl, rfl⟩

end Course

/-! ### What the store has seen -/

/-- The store has seen calls of the workers, and after them what the run itself asked of it. -/
def Noted (r : Run (Logged σ)) : Prop :=
  ∃ calls : List Served,
    r.pool.store.log.reverse = calls.map .served ++ r.deeds.filterMap Deed.access?

section Noted

variable {s : Setting σ} {r r' : Run (Logged σ)} {e : Event}

/-- A deed that is no use of the connection leaves the log as it is. -/
lemma Noted.of_eq (h : Noted r) (hlog : r'.pool.store.log = r.pool.store.log)
    (hdeeds : r'.deeds.filterMap Deed.access? = r.deeds.filterMap Deed.access?) : Noted r' := by
  obtain ⟨calls, hcalls⟩ := h
  exact ⟨calls, by rw [hlog, hdeeds, hcalls]⟩

/-- One more deed that the store has seen. -/
lemma Noted.access (h : Noted r) {d : Deed} {a : Access} (hd : d.access? = some a)
    (hlog : r'.pool.store.log = a :: r.pool.store.log) (hdeeds : r'.deeds = r.deeds ++ [d]) :
    Noted r' := by
  obtain ⟨calls, hcalls⟩ := h
  refine ⟨calls, ?_⟩
  rw [hlog, List.reverse_cons, hcalls, hdeeds, List.filterMap_append, List.append_assoc]
  congr 2
  rw [List.filterMap_cons_some hd, List.filterMap_nil]

/-- As long as the workers are not gone, the run has asked nothing of the store itself. -/
lemma Course.unasked {s : Setting (Logged σ)} (h : Course s r) :
    r.pool.isOver = true ∨ r.database = none ∨ r.deeds.filterMap Deed.access? = [] := by
  rw [Course] at h
  -- up to the look the run itself has asked nothing of the store
  cases hp : r.phase with
  | selecting =>
      rw [hp] at h
      exact .inr (.inl h.1)
  | launched =>
      rw [hp] at h
      exact .inr (.inr (by rw [h.2]; rfl))
  | gathering =>
      rw [hp] at h
      exact .inr (.inr (by rw [h.2]; rfl))
  | ended o =>
      rw [hp] at h
      rcases h.1 with hnone | hgone
      · exact .inr (.inl hnone)
      · exact .inl hgone.isOver
  | _ =>
      rw [hp] at h
      exact .inl h.1.isOver

/-- An event of the pool adds a call of a worker, and only as long as the workers are not gone. -/
lemma Noted.pool (h : Noted r) {s : Setting (Logged σ)} (hcourse : Course s r) {db : Database σ}
    (hdb : r.database = some db.logged) (d : Pool.Event) :
    Noted { r with pool := r.pool.step db.logged d } := by
  have hs := Pool.stepped db.logged r.pool d
  rcases hs.log with hsame | ⟨x, hx⟩
  · exact h.of_eq hsame rfl
  · rcases hcourse.unasked with hover | hnone | hunasked
    · exact h.of_eq (congrArg Logged.log (hs.of_isOver hover).2) rfl
    · rw [hdb] at hnone
      cases hnone
    · obtain ⟨calls, hcalls⟩ := h
      refine ⟨calls ++ [x], ?_⟩
      show (r.pool.step db.logged d).store.log.reverse =
        (calls ++ [x]).map .served ++ r.deeds.filterMap Deed.access?
      rw [hunasked, List.append_nil] at hcalls ⊢
      rw [hx, List.reverse_cons, hcalls, List.map_append]
      rfl

/-- Every move of the run is noted where it uses the connection. -/
lemma Noted.advanced (h : Noted r)
    (hl : ∀ db, r.database = some db → ∃ d : Database σ, db = d.logged)
    (hs : Advanced s.logged r r') : Noted r' := by
  -- most deeds ask nothing of the store; the look and the closing do
  have hmark {d : Deed} (hlog : r'.pool.store.log = r.pool.store.log)
      (hd : r'.deeds = r.deeds ++ [d]) (haccess : d.access? = none) : Noted r' := by
    refine h.of_eq hlog ?_
    rw [hd, List.filterMap_append, List.filterMap_cons_none haccess, List.filterMap_nil,
      List.append_nil]
  cases hs with
  | refused hp hdb => exact hmark rfl (deeds_of_mark rfl rfl) rfl
  | crowded hp hdb hb => exact hmark rfl (deeds_of_mark rfl rfl) rfl
  | launch hp hdb hb => exact hmark rfl (deeds_of_mark rfl rfl) rfl
  | release hp => exact h.of_eq rfl rfl
  | gathered hp hover =>
      exact h.of_eq (congrArg Logged.log (Pool.requestShutdown_store (r.pool.note .allJoined))) rfl
  | retired hp hover => exact h.of_eq rfl rfl
  | @overflowed db o hp hdb ho =>
      obtain ⟨d, rfl⟩ := hl db hdb
      exact h.access rfl (congrArg Logged.log (looked_store s.logged r d.logged))
        (looked_deeds s.logged r d.logged)
  | @looked db report hp hdb ho =>
      obtain ⟨d, rfl⟩ := hl db hdb
      exact h.access rfl (congrArg Logged.log (looked_store s.logged r d.logged))
        (looked_deeds s.logged r d.logged)
  | unreported hp hf => exact hmark rfl (deeds_of_mark rfl rfl) rfl
  | @reported sentinel report text hp ht =>
      have hpool := putText_goTo_pool r report text
      exact hmark (by rw [hpool]) (putText_deeds r report text) rfl
  | unacknowledged hp hf => exact hmark rfl (deeds_of_awaited rfl) rfl
  | acknowledged hp hf => exact hmark rfl (deeds_of_awaited rfl) rfl
  | unclosed hp hc => exact h.access rfl rfl (deeds_of_mark rfl rfl)
  | closed hp hc => exact h.access rfl rfl (deeds_of_mark rfl rfl)

/-- **Every event keeps the log in order.** -/
theorem Noted.stepped (h : Noted r) (hcourse : Course s.logged r)
    (hl : ∀ db, r.database = some db → ∃ d : Database σ, db = d.logged)
    (hs : Stepped s.logged r e r') : Noted r' := by
  cases hs with
  | control hs => exact h.advanced hl hs
  | @turn i db hdb =>
      obtain ⟨d, rfl⟩ := hl db hdb
      exact h.pool hcourse hdb _
  | @interrupt i db hdb =>
      obtain ⟨d, rfl⟩ := hl db hdb
      exact h.pool hcourse hdb _
  | link i => exact h.of_eq rfl rfl
  | @ring due limit ha hlimit hdue =>
      exact h.of_eq (congrArg Logged.log
        (Pool.requestShutdown_store (r.pool.note (.deadlineReached limit)))) rfl
  | cancel => exact h.of_eq (congrArg Logged.log (Pool.requestShutdown_store r.pool)) rfl
  | tick d => exact h.of_eq rfl rfl
  | idle => exact h

end Noted

/-! ### The look for the sentinel key -/

/-- What holds after a run and did not hold before it has come about by one of its events. -/
lemma exists_first {s : Setting σ} {P : Run σ → Prop} {r : Run σ} (h : ¬ P r) {events : List Event}
    (hend : P (r.run s events)) :
    ∃ before e after, events = before ++ e :: after ∧ ¬ P (r.run s before) ∧
      P ((r.run s before).step s e) := by
  induction events generalizing r with
  | nil => exact absurd hend h
  | cons e events ih =>
      by_cases hstep : P (r.step s e)
      · exact ⟨[], e, events, rfl, h, hstep⟩
      · obtain ⟨before, e', after, rfl, hbefore, hfirst⟩ := ih hstep hend
        exact ⟨e :: before, e', after, rfl, hbefore, hfirst⟩

/-- The moment at which a run looks for the sentinel key: its workers are all gone, no link of its
chains is left, and it has not looked before. -/
structure Looks (s : Setting σ) (db : Database σ) (q : Run σ) : Prop where
  database : q.database = some db
  gone : Gone s q
  unlinked : q.pressure.links = #[]
  unlooked : ∀ now, .lookedUp s.config.sentinelKey now ∉ q.deeds
  /-- The look is the next move of the run. -/
  control : q.step s .control = q.lookUp s db

section Looks

variable {s : Setting σ} {r r' : Run σ} {e : Event} {T : Report → Prop}

/-- A move of the run that is not its look does not put the look among its deeds. -/
lemma Advanced.looks (hs : Advanced s r r') {now : ℕ}
    (hlooked : .lookedUp s.config.sentinelKey now ∈ r'.trail)
    (hno : .lookedUp s.config.sentinelKey now ∉ r.trail) :
    r.phase = .checking ∧ ∃ db, r.database = some db := by
  have hdid {d : Deed} (hd : d ≠ .lookedUp s.config.sentinelKey now)
      (hmem : .lookedUp s.config.sentinelKey now ∈ d :: r.trail) : False :=
    (List.mem_cons.mp hmem).elim (fun h => hd h.symm) hno
  -- no other move adds a look to the trail
  cases hs with
  | refused hp hdb => exact (hdid (by simp) hlooked).elim
  | crowded hp hdb hb => exact (hdid (by simp) hlooked).elim
  | launch hp hdb hb => exact (hdid (by simp) hlooked).elim
  | release hp => exact (hno hlooked).elim
  | gathered hp hover => exact (hno hlooked).elim
  | retired hp hover => exact (hno hlooked).elim
  | overflowed hp hdb ho => exact ⟨hp, _, hdb⟩
  | looked hp hdb ho => exact ⟨hp, _, hdb⟩
  | unreported hp hf => exact (hdid (by simp) hlooked).elim
  | @reported sentinel report text hp ht =>
      rcases (mem_putText_trail r report text).mp hlooked with ⟨h, -⟩ | h | h
      · cases h
      · cases h
      · exact (hno h).elim
  | unacknowledged hp hf =>
      rcases List.mem_cons.mp hlooked with h | h
      · cases h
      · exact (hdid (by simp) h).elim
  | acknowledged hp hf =>
      rcases List.mem_cons.mp hlooked with h | h
      · cases h
      · exact (hdid (by simp) h).elim
  | unclosed hp hc => exact (hdid (by simp) hlooked).elim
  | closed hp hc => exact (hdid (by simp) hlooked).elim

/-- A run looks for the sentinel key only when its workers are gone and its chains have retired. -/
lemma Stepped.looks (hs : Stepped s r e r') (hcourse : Course s r)
    (hno : ¬ ∃ now, .lookedUp s.config.sentinelKey now ∈ r.deeds)
    (hlooked : ∃ now, .lookedUp s.config.sentinelKey now ∈ r'.deeds) :
    e = .control ∧ r.phase = .checking ∧ ∃ db, Looks s db r := by
  obtain ⟨now, hnow⟩ := hlooked
  have hbefore : .lookedUp s.config.sentinelKey now ∉ r.deeds := fun h => hno ⟨now, h⟩
  rcases hs.aside with ⟨he, hs⟩ | ha
  · rw [mem_deeds rfl] at hnow hbefore
    obtain ⟨hp, db, hdb⟩ := hs.looks hnow hbefore
    rw [Course, hp] at hcourse
    refine ⟨he, hp, db, hdb, hcourse.1, Array.isEmpty_iff.mp hcourse.2.1,
      fun now h => hno ⟨now, h⟩, ?_⟩
    rw [Run.step, Run.control, hp]
    dsimp only
    rw [hdb]
  · rw [deeds_of_eq ha.trail] at hnow
    exact absurd hnow hbefore

/-! ### The report -/

/-- A run after its look for the sentinel key, all reports of which are of the given kind. -/
def Bound (T : Report → Prop) (r : Run σ) : Prop :=
  (∀ t, .reported t ∈ r.deeds → T t) ∧
    match r.phase with
    | .reporting _ t | .acknowledging _ t | .closing _ t => T t
    | .ended _ => True
    | _ => False

/-- A move that puts no report out and keeps the one that there is. -/
lemma Bound.advanced (h : Bound T r) (hs : Advanced s r r') : Bound T r' := by
  obtain ⟨hreported, hphase⟩ := h
  have hdid {d : Deed} (hne : ∀ t, d = .reported t → T t)
      (hdeeds : r'.deeds = r.deeds ++ [d]) : ∀ t, .reported t ∈ r'.deeds → T t := by
    intro t ht
    rw [hdeeds, List.mem_append, List.mem_singleton] at ht
    exact ht.elim (hreported t) fun h => hne t h.symm
  have hother {d : Deed} (hd : ∀ t, d ≠ .reported t) (hdeeds : r'.deeds = r.deeds ++ [d]) :
      ∀ t, .reported t ∈ r'.deeds → T t :=
    hdid (fun t ht => absurd ht (hd t)) hdeeds
  cases hs with
  | unreported hp hf =>
      rw [hp] at hphase
      exact ⟨hdid (fun t ht => Deed.reported.inj ht ▸ hphase) (deeds_of_mark rfl rfl), trivial⟩
  | @reported sentinel report text hp ht =>
      rw [hp] at hphase
      refine ⟨hdid (fun t ht => Deed.reported.inj ht ▸ hphase) (putText_deeds r report text), ?_⟩
      by_cases hwait : (s.config.waitForAck && report.failures.isEmpty) = true
      · rw [if_pos hwait]
        exact hphase
      · rw [if_neg hwait]
        exact hphase
  | unacknowledged hp hf =>
      exact ⟨hother (d := .awaited) nofun (deeds_of_awaited rfl), trivial⟩
  | acknowledged hp hf =>
      rw [hp] at hphase
      exact ⟨hother (d := .awaited) nofun (deeds_of_awaited rfl), hphase⟩
  | unclosed hp hc =>
      exact ⟨hother (d := .closed r.pool.now) nofun (deeds_of_mark rfl rfl), trivial⟩
  | closed hp hc =>
      exact ⟨hother (d := .closed r.pool.now) nofun (deeds_of_mark rfl rfl), trivial⟩
  -- the moves up to the look are over
  | refused hp | crowded hp | launch hp | release hp | gathered hp | retired hp
  | overflowed hp | looked hp =>
      rw [hp] at hphase
      exact hphase.elim

/-- **Every event keeps the report.** -/
theorem Bound.stepped (h : Bound T r) (hs : Stepped s r e r') : Bound T r' := by
  rcases hs.aside with ⟨-, hs⟩ | ha
  · exact h.advanced hs
  · rw [Bound, deeds_of_eq ha.trail, ha.phase]
    exact h

/-- After its look a run makes the report of its accounts at that moment, or none. -/
lemma Bound.lookUp (hp : r.phase = .checking) (hcourse : Course s r) (db : Database σ) :
    Bound (fun t => Report.ofAccounts
      (r.accounts s (db.keyExists s.config.sentinelKey r.pool.store).1) = .ok t)
      (r.lookUp s db) := by
  rw [Course, hp] at hcourse
  have hnone (p : Phase) (t : Report) :
      .reported t ∉ ((r.looked s db).goTo p).deeds := by
    show .reported t ∉ (r.looked s db).deeds
    rw [looked_deeds, hcourse.2.2]
    simp
  rw [lookUp_eq]
  split
  · exact ⟨fun t ht => absurd ht (hnone _ t), trivial⟩
  · rename_i report ho
    exact ⟨fun t ht => absurd ht (hnone _ t), ho⟩

end Looks

/-! ### The run as a whole -/

section Whole

variable {s : Setting σ} {store : σ} {events : List Event}

/-- At every moment a run is on its course. -/
lemma run_course (s : Setting σ) (store : σ) (events : List Event) :
    Course s ((begin s store).run s events) :=
  run_induction (fun h hs => h.stepped hs) (Course.begin s store) events

/-- What the store has seen of a run. -/
lemma uses_eq (s : Setting σ) (store : σ) (events : List Event) :
    ∃ calls : List Served, uses s store events = calls.map .served ++
      ((begin s store).run s events).deeds.filterMap Deed.access? := by
  have hbegin : begin s.logged ⟨store, []⟩ = (begin s store).logged [] := rfl
  obtain ⟨log, hlog⟩ := run_logged s (begin s store) [] events
  have horderly : Orderly s store (begin s.logged ⟨store, []⟩) :=
    ⟨fun db hdb => absurd hdb (by simp [begin]), rfl, rfl, rfl⟩
  have h := run_induction (s := s.logged)
    (P := fun r => Orderly s store r ∧ Course s.logged r ∧ Noted r)
    (fun h hs => ⟨h.1.stepped hs, h.2.1.stepped hs, h.2.2.stepped h.2.1 h.1.logged hs⟩)
    ⟨horderly, Course.begin s.logged ⟨store, []⟩, [], rfl⟩ events
  obtain ⟨calls, hcalls⟩ := h.2.2
  refine ⟨calls, hcalls.trans ?_⟩
  rw [hbegin, hlog]
  rfl

/-- Where a run has looked for the sentinel key, it did so by one of its moves. -/
lemma exists_look {now : ℕ}
    (h : .lookedUp s.config.sentinelKey now ∈ ((begin s store).run s events).deeds) :
    ∃ before after db, events = before ++ .control :: after ∧
      Looks s db ((begin s store).run s before) ∧
      Bound (fun t => Report.ofAccounts (((begin s store).run s before).accounts s
        (db.keyExists s.config.sentinelKey ((begin s store).run s before).pool.store).1) = .ok t)
        ((begin s store).run s events) := by
  -- the first event after which there is a look in the trail
  obtain ⟨before, e, after, rfl, hno, hlooked⟩ := exists_first (s := s)
    (P := fun r => ∃ now, .lookedUp s.config.sentinelKey now ∈ r.deeds)
    (r := begin s store) (by rintro ⟨now, hnow⟩; cases hnow) ⟨now, h⟩
  have hcourse := run_course s store before
  obtain ⟨rfl, hp, db, hlooks⟩ :=
    (stepped s ((begin s store).run s before) e).looks hcourse hno hlooked
  refine ⟨before, after, db, rfl, hlooks, ?_⟩
  have hrun : (begin s store).run s (before ++ .control :: after) =
      (((begin s store).run s before).lookUp s db).run s after := by
    rw [run, List.foldl_append, List.foldl_cons, ← hlooks.control]
    rfl
  rw [hrun]
  exact run_induction (fun h hs => h.stepped hs) (.lookUp hp hcourse db) after

/-- What the report of a run tells of the moment at which the run has looked for the sentinel key:
the answer of the look, and whether a worker had failed. -/
structure Tells (s : Setting σ) (db : Database σ) (q : Run σ) (t : Report) : Prop where
  unknown : t.sentinelExists = none ↔
    ∃ e, (db.keyExists s.config.sentinelKey q.pool.store).1 = .error e
  known : ∀ present, t.sentinelExists = some present ↔
    (db.keyExists s.config.sentinelKey q.pool.store).1 = .ok present
  failures : t.failures = [] ↔
    ∀ i report, q.pool.reportOf? i = some report → report.failure = none

/-- A report has the failures and the answer of its accounts. -/
lemma ofAccounts_parts {a : Accounts} {t : Report} (h : Report.ofAccounts a = .ok t) :
    t.failures = (Report.failuresOf a.workers).map WorkerError.message ∧
      t.sentinelExists = a.sentinelExists := by
  rw [Report.ofAccounts] at h
  cases hm : Report.mergeAll Tally.empty (a.workers.map WorkerReport.tally) with
  | error o =>
      rw [hm] at h
      cases h
  | ok tally =>
      rw [hm] at h
      cases h
      exact ⟨rfl, rfl⟩

lemma Tells.of_accounts {db : Database σ} {q : Run σ} {t : Report} (hover : q.pool.isOver = true)
    (h : Report.ofAccounts
      (q.accounts s (db.keyExists s.config.sentinelKey q.pool.store).1) = .ok t) :
    Tells s db q t := by
  -- the workers are gone, so all of them have a report
  obtain ⟨rs, hrs⟩ := Pool.exists_reports hover
  obtain ⟨hfailures, hsentinel⟩ := ofAccounts_parts h
  rw [accounts] at hfailures hsentinel
  dsimp only at hfailures hsentinel
  refine ⟨?_, fun present => ?_, ?_⟩
  · rw [hsentinel]
    cases (db.keyExists s.config.sentinelKey q.pool.store).1 <;> simp [Except.toOption]
  · rw [hsentinel]
    cases (db.keyExists s.config.sentinelKey q.pool.store).1 <;> simp [Except.toOption]
  · rw [hfailures, hrs, Option.getD_some, List.map_eq_nil_iff, Report.failuresOf,
      List.filterMap_eq_nil_iff]
    constructor
    · intro hnone i report hreport
      rw [← Pool.getElem?_reports hrs] at hreport
      exact hnone report (List.mem_of_getElem? hreport)
    · intro hnone report hmem
      obtain ⟨i, hi⟩ := List.mem_iff_getElem?.mp hmem
      exact hnone i report (Pool.getElem?_reports hrs i ▸ hi)

/-- **A run does what it does in order.**

It selects its database, looks for the sentinel key, puts its report out, waits for the operator
and closes the connection, each of these at most once and none before the one that it rests on. The
store sees all calls of the workers before it is asked for the sentinel key and closed, and nothing
after that. When the run looks for the sentinel key its workers are all gone and its chains have
retired, and of this moment its report tells. A run that finishes hands over the report that it put
out. -/
theorem run_in_order (s : Setting σ) (store : σ) (events : List Event) :
    let r := (begin s store).run s events
    InOrder s r.deeds ∧
      (∃ calls : List Served,
        uses s store events = calls.map .served ++ r.deeds.filterMap Deed.access?) ∧
      (∀ now, .lookedUp s.config.sentinelKey now ∈ r.deeds →
        ∃ before after db, events = before ++ .control :: after ∧
          Looks s db ((begin s store).run s before) ∧
          ∀ t, .reported t ∈ r.deeds → Tells s db ((begin s store).run s before) t) ∧
      ∀ t, r.outcome? = some (.finished t) → .reported t ∈ r.deeds := by
  intro r
  have hcourse : Course s r := run_course s store events
  refine ⟨hcourse.inOrder, uses_eq s store events, fun now hnow => ?_, fun t ht => ?_⟩
  · obtain ⟨before, after, db, hevents, hlooks, hbound⟩ := exists_look hnow
    exact ⟨before, after, db, hevents, hlooks,
      fun t ht => .of_accounts hlooks.gone.isOver (hbound.1 t ht)⟩
  · rw [outcome?] at ht
    rw [Course] at hcourse
    split at ht
    · rename_i o hp
      rw [hp] at hcourse
      exact hcourse.2.2 t (Option.some.inj ht)
    · cases ht

end Whole

end Run

end StoreSoak
