import StoreSoak.Proofs.Pool.Causes
import StoreSoak.Proofs.Run.Progress

/-!
What the workers still do once the shutdown is asked for.

A worker looks at the shutdown signal when it is released and before each iteration. From the moment
at which the signal is raised, whoever has raised it, all that a worker can still issue is the one
call for which it was cleared before.

* `Worker.issued` and `Pool.issued` are the calls that a worker has issued so far, whether they came
  back or not.
* `Worker.WoundDown`: what a worker can have come to since the signal was raised. Every turn of the
  worker keeps to it, in any order with the turns of the others.
* `Pool.WoundDown` says so of a pool, also where the workers were launched only after the signal.
* `promptly_wound_down`: the calls of the workers of a pool, and of a run, after the signal was
  raised.
-/

namespace StoreSoak

namespace Worker

variable {p : Plan} {g : Generator} {s : Signals} {now : ℕ} {w w' w'' : Worker}

/-- The calls that a worker has issued, in their order and with their iterations. -/
def issued (w : Worker) : List (ℕ × Request) :=
  (w.calls.map fun c => (c.iteration, c.request)).reverse

lemma length_issued (w : Worker) : w.issued.length = w.calls.length := by
  rw [issued, List.length_reverse, List.length_map]

/-! ### Since the signal was raised -/

/-- What a worker has come to since the shutdown signal was raised. -/
inductive WoundDown (p : Plan) (w w' : Worker) : Prop where
  /-- It has issued no call, and was not cleared for one either. -/
  | still (hissued : w'.issued = w.issued)
      (hstage : ∀ k, w'.stage = .cleared k → w.stage = .cleared k) : WoundDown p w w'
  /-- It has issued the call for which it was cleared. -/
  | last {k : ℕ} {f : Flags} (hs : w.stage = .cleared k)
      (hissued : w'.issued = w.issued ++ [(k, p.request k f)])
      (hstage : ∀ k', w'.stage ≠ .cleared k') : WoundDown p w w'

lemma WoundDown.refl (p : Plan) (w : Worker) : WoundDown p w w :=
  .still rfl fun _ => id

lemma WoundDown.trans (h : WoundDown p w w') (h' : WoundDown p w' w'') : WoundDown p w w'' := by
  cases h with
  | still hissued hstage =>
      cases h' with
      | still hissued' hstage' =>
          exact .still (hissued'.trans hissued) fun k hs => hstage k (hstage' k hs)
      | last hs' hissued' hstage' => exact .last (hstage _ hs') (hissued ▸ hissued') hstage'
  | last hs hissued hstage =>
      cases h' with
      | still hissued' hstage' =>
          exact .last hs (hissued'.trans hissued) fun k hs' => hstage k (hstage' k hs')
      | last hs' _ _ => exact absurd hs' (hstage _)

/-- A worker that is not cleared after its turn and has issued nothing at it. -/
lemma WoundDown.of_calls (hcalls : w'.calls = w.calls) (hstage : ∀ k, w'.stage ≠ .cleared k) :
    WoundDown p w w' :=
  .still (by rw [issued, hcalls, issued]) fun k hs => absurd hs (hstage k)

/-- A reply changes nothing about what was issued. -/
lemma issued_noteReply (w : Worker) (reply : Reply (Option Bool)) :
    (w.noteReply reply).issued = w.issued := by
  rw [issued, noteReply, issued]
  cases w.calls <;> rfl

/-- **At its turn a worker that can notice the shutdown signal issues at most the call for which it
was cleared**, and it is not cleared for another one. -/
theorem Turned.woundDown (ht : Turned p s now w w') (hshutdown : s.shutdown = true) :
    WoundDown p w w' := by
  cases ht with
  | @release go hs hgo =>
      rw [Signals.started, if_pos hshutdown] at hgo
      cases hgo
      refine .of_calls ?_ ?_ <;> rw [Worker.release, hs]
      · rfl
      · exact fun k hk => by cases hk
  | @check k hs =>
      -- the bound is looked at first, but either way the worker leaves
      have hleaving : ∃ e, (w.check p s.shutdown).1 = w.goTo (.leaving e) := by
        rw [Worker.check, hs, hshutdown]
        dsimp only
        split
        · exact ⟨_, rfl⟩
        · exact ⟨_, rfl⟩
      obtain ⟨e, he⟩ := hleaving
      rw [he]
      exact .of_calls rfl fun k hk => by cases hk
  | @issue k hs =>
      refine .last (f := (p.draw w.generator).1) hs ?_ ?_ <;> simp only [Worker.issue, hs]
      · simp only [issued, List.map_cons, List.reverse_cons]
        rfl
      · exact fun k' hk => by cases hk
  | @receive k since f hs reply hadmits =>
      refine .still ?_ fun k' hk => ?_
      · rw [issued, calls_receive p w now reply hs, ← issued, issued_noteReply]
      · rcases receive_stage (p := p) hs now reply with ⟨e, he, -⟩ | ⟨-, he⟩ | ⟨-, he⟩ <;>
          · rw [he] at hk
            cases hk
  | resume hs =>
      refine .of_calls ?_ ?_ <;> rw [Worker.resume, hs]
      · rfl
      · exact fun k hk => by cases hk
  | interrupt hs _ =>
      refine .of_calls ?_ ?_ <;> rw [Worker.interrupt, hs]
      · rfl
      · exact fun k hk => by cases hk
  | finish hs =>
      refine .of_calls ?_ ?_ <;> rw [Worker.finish, hs]
      · rfl
      · exact fun k hk => by cases hk

/-! ### What the store has seen -/

/-- The store has seen all calls of a worker but possibly the last one. -/
lemma Sound.length_row (h : Sound p g w) :
    w.row.length ≤ w.issued.length ∧ w.issued.length ≤ w.row.length + 1 := by
  rw [length_issued, row, List.length_reverse]
  refine ⟨List.length_filterMap_le _ _, ?_⟩
  have hserved := length_served (i := w.index) h.tail_answered
  rw [List.length_tail] at hserved
  have htail : (w.calls.tail.filterMap (Call.served? w.index)).length ≤
      (w.calls.filterMap (Call.served? w.index)).length :=
    ((List.tail_sublist w.calls).filterMap _).length_le
  omega

/-- The store has seen all calls of a worker that is not waiting for an answer. -/
lemma Settled.length_row {t : Totals} (h : Settled p w.calls t) :
    w.row.length = w.issued.length := by
  rw [length_issued, row, List.length_reverse, length_served h.answered]

end Worker

namespace Pool

variable {σ : Type} {db : Database σ} {p q q' : Pool σ} {e : Event} {plan : Plan}

/-- The calls that the worker at a place has issued, in their order and with their iterations. -/
def issued (p : Pool σ) (i : ℕ) : List (ℕ × Request) :=
  (p.workers[i]?.map Worker.issued).getD []

/-- Where the worker at a place stands. -/
def stage? (p : Pool σ) (i : ℕ) : Option Stage :=
  p.workers[i]?.map Worker.stage

/-- What a pool has come to since the shutdown signal was raised. A worker that was not there then
counts as one that waited for its start. -/
structure WoundDown (plan : Plan) (p q : Pool σ) : Prop where
  plan_eq : q.plan = plan
  shutdown : q.signals.shutdown = true
  size : p.workers.size ≤ q.workers.size
  worker : ∀ {i : ℕ} {w' : Worker}, q.workers[i]? = some w' → ∃ w, Worker.WoundDown plan w w' ∧
    (p.workers[i]? = some w ∨ p.workers[i]? = none ∧ w.stage = .parked ∧ w.calls = [])

lemma WoundDown.refl (hplan : p.plan = plan) (hshutdown : p.signals.shutdown = true) :
    WoundDown plan p p :=
  ⟨hplan, hshutdown, Nat.le_refl _, fun {_ w'} hw' => ⟨w', .refl plan w', .inl hw'⟩⟩

/-- A change that leaves the workers alone. -/
lemma WoundDown.of_eq (h : WoundDown plan p q) (hplan : q'.plan = q.plan)
    (hworkers : q'.workers = q.workers) (hsignals : Raised q.signals q'.signals) :
    WoundDown plan p q' :=
  ⟨hplan.trans h.plan_eq, hsignals.shutdown h.shutdown, by rw [hworkers]; exact h.size,
    by rw [hworkers]; exact h.worker⟩

/-- **Every event in a pool that can notice the shutdown signal winds it down.** -/
theorem WoundDown.stepped (h : WoundDown plan p q) (hs : Stepped db q e q') :
    WoundDown plan p q' := by
  refine ⟨hs.plan.trans h.plan_eq, hs.shutdown h.shutdown, hs.size ▸ h.size, ?_⟩
  intro i w'' hw''
  obtain ⟨w', hw', rfl | ht⟩ := hs.turned hw''
  · exact h.worker hw'
  · obtain ⟨w, hw, hwas⟩ := h.worker hw'
    exact ⟨w, hw.trans (h.plan_eq ▸ ht.woundDown h.shutdown), hwas⟩

/-- Since the signal was raised each worker has issued no call, or the one call for which it was
cleared. -/
lemma WoundDown.issued_eq (h : WoundDown plan p q) (i : ℕ) :
    q.issued i = p.issued i ∨ ∃ k f, p.stage? i = some (.cleared k) ∧
      q.issued i = p.issued i ++ [(k, plan.request k f)] := by
  rw [issued, issued, stage?]
  cases hw' : q.workers[i]? with
  | none =>
      have hsize := h.size
      rw [Array.getElem?_eq_none_iff] at hw'
      rw [Array.getElem?_eq_none (by omega)]
      exact .inl rfl
  | some w' =>
      -- a worker of the later pool was there before or was launched in between
      obtain ⟨w, hwound, hw | ⟨hnone, hparked, hcalls⟩⟩ := h.worker hw'
      · rw [hw]
        cases hwound with
        | still hissued _ => exact .inl hissued
        | @last k f hs hissued _ => exact .inr ⟨k, f, congrArg some hs, hissued⟩
      · rw [hnone]
        cases hwound with
        | still hissued _ =>
            refine .inl (hissued.trans ?_)
            rw [Worker.issued, hcalls]
            rfl
        | last hs _ _ =>
            rw [hparked] at hs
            cases hs

/-- A worker at a place issues no call unless it is cleared for one. -/
lemma WoundDown.issued_of_stage (h : WoundDown plan p q) {i : ℕ}
    (hstage : ∀ k, p.stage? i ≠ some (.cleared k)) : q.issued i = p.issued i := by
  rcases h.issued_eq i with hsame | ⟨k, f, hs, -⟩
  · exact hsame
  · exact absurd hs (hstage k)

/-! ### What the store has seen -/

/-- As time goes by a trace only grows. -/
lemma trace_append (db : Database σ) (p : Pool σ) (before after : List Event) (i : ℕ) :
    ∃ more, p.trace db (before ++ after) i = p.trace db before i ++ more := by
  have hlog : ∃ log, (((p.logged []).run db.logged before).run db.logged after).store.log =
      log ++ ((p.logged []).run db.logged before).store.log := by
    refine run_induction (P := fun q : Pool (Logged σ) => ∃ log,
      q.store.log = log ++ ((p.logged []).run db.logged before).store.log) ?_ ⟨[], rfl⟩ after
    rintro q q' e ⟨log, hlog⟩ hs
    rcases hs.log with hsame | ⟨s, hs⟩
    · exact ⟨log, hsame.trans hlog⟩
    · exact ⟨.served s :: log, by rw [hs, hlog, List.cons_append]⟩
  obtain ⟨log, hlog⟩ := hlog
  refine ⟨(log.filterMap (Access.servedTo? i)).reverse, ?_⟩
  rw [trace, run_append, hlog, List.filterMap_append, List.reverse_append, trace]

/-! ### At a place -/

/-- How the worker at a place has gone on since the shutdown signal was raised. -/
structure Prompt (plan : Plan) (p q : Pool σ) (i : ℕ) : Prop where
  /-- It has issued no further call, or the one call for which it was cleared. -/
  issued : q.issued i = p.issued i ∨ ∃ k f, p.stage? i = some (.cleared k) ∧
    q.issued i = p.issued i ++ [(k, plan.request k f)]
  /-- A worker that waited for its start, or was not there yet, has issued no call at all. -/
  parked : p.stage? i = none ∨ p.stage? i = some .parked → q.issued i = []
  pausing : ∀ k wake, p.stage? i = some (.pausing k wake) → q.issued i = p.issued i

/-- A pool of sound workers winds down promptly. -/
lemma WoundDown.prompt (h : WoundDown plan p q)
    (hsound : ∀ {i : ℕ} {w : Worker}, p.workers[i]? = some w → ∃ g, w.Sound plan g) (i : ℕ) :
    Prompt plan p q i := by
  refine ⟨h.issued_eq i, ?_, fun k wake hs => h.issued_of_stage fun k' hk => ?_⟩
  · rintro (hs | hs)
    · rw [h.issued_of_stage (fun k hk => by rw [hs] at hk; cases hk)]
      rw [stage?, Option.map_eq_none_iff] at hs
      rw [Pool.issued, hs]
      rfl
    · rw [h.issued_of_stage (fun k hk => by rw [hs] at hk; cases hk)]
      obtain ⟨w, hw, hparked⟩ := Option.map_eq_some_iff.mp hs
      obtain ⟨g, hg⟩ := hsound hw
      rw [Pool.issued, hw]
      show w.issued = []
      rw [Worker.issued, (hg.of_parked hparked).1]
      rfl
  · rw [hs] at hk
    cases hk

/-- The worker that was at a place is still there. -/
lemma WoundDown.worker_of (h : WoundDown plan p q) {i : ℕ} {w : Worker}
    (hw : p.workers[i]? = some w) : ∃ w', q.workers[i]? = some w' ∧ Worker.WoundDown plan w w' := by
  have hi : i < q.workers.size := Nat.lt_of_lt_of_le (Array.getElem?_eq_some_iff.mp hw).1 h.size
  obtain ⟨v, hwound, hv | ⟨hnone, -⟩⟩ := h.worker (Array.getElem?_eq_getElem hi)
  · rw [hw] at hv
    cases hv
    exact ⟨_, Array.getElem?_eq_getElem hi, hwound⟩
  · rw [hw] at hnone
    cases hnone

/-- **Since the shutdown signal was raised the store has seen of each worker one call more at
most**, and none of a worker that waits for its start or pauses. -/
lemma WoundDown.trace (policy : FailurePolicy) (count : ℕ) (entropy : ℕ → Generator) (store : σ)
    (before after : List Event) {i : ℕ} {w : Worker}
    (hw : ((launch plan policy count entropy store).run db before).workers[i]? = some w)
    (h : WoundDown plan ((launch plan policy count entropy store).run db before)
      (((launch plan policy count entropy store).run db before).run db after)) :
    ∃ more, (launch plan policy count entropy store).trace db (before ++ after) i =
        (launch plan policy count entropy store).trace db before i ++ more ∧
      more.length ≤ 1 ∧
      (w.stage = .parked ∨ (∃ k wake, w.stage = .pausing k wake) → more = []) := by
  obtain ⟨more, hmore⟩ := trace_append db (launch plan policy count entropy store) before after i
  obtain ⟨w', hw', hwound⟩ := h.worker_of hw
  rw [← run_append] at hw'
  obtain ⟨hsound, -, hrow⟩ := trace_eq_row db plan policy count entropy store before hw
  obtain ⟨hsound', -, hrow'⟩ := trace_eq_row db plan policy count entropy store _ hw'
  have hlength : w'.row.length = w.row.length + more.length := by
    rw [← hrow', ← hrow, hmore, List.length_append]
  have hbounds := hsound.length_row
  have hbounds' := hsound'.length_row
  refine ⟨more, hmore, ?_, fun hstage => ?_⟩
  · cases hwound with
    | still hissued _ =>
        rw [hissued] at hbounds'
        omega
    | last hs hissued _ =>
        -- a cleared worker has the answers to all its calls
        have hall := (hsound.of_cleared hs).2.2.length_row
        rw [hissued, List.length_append, List.length_singleton] at hbounds'
        omega
  · have hall : w.row.length = w.issued.length := by
      rcases hstage with hs | ⟨k, wake, hs⟩
      · simp [Worker.row, Worker.issued, (hsound.of_parked hs).1]
      · exact (hsound.of_pausing hs).2.2.length_row
    cases hwound with
    | still hissued _ =>
        rw [hissued] at hbounds'
        exact List.eq_nil_of_length_eq_zero (by omega)
    | last hcleared _ _ => rcases hstage with hs | ⟨k, wake, hs⟩ <;> simp [hs] at hcleared

end Pool

namespace Run

variable {σ : Type} {s : Setting σ} {r r' q q' : Run σ} {e : Event}

open Pool (WoundDown Prompt Raised)

/-! ### The pool of a run -/

/-- A change of a run that spares the workers of its pool and lowers no signal. -/
structure Spared (r r' : Run σ) : Prop where
  plan : r'.pool.plan = r.pool.plan
  workers : r'.pool.workers = r.pool.workers
  signals : Raised r.pool.signals r'.pool.signals

lemma Spared.of_eq (hplan : r'.pool.plan = r.pool.plan)
    (hworkers : r'.pool.workers = r.pool.workers) (hsignals : r'.pool.signals = r.pool.signals) :
    Spared r r' :=
  ⟨hplan, hworkers, by rw [hsignals]; exact ⟨id, id, id⟩⟩

lemma Spared.requestShutdown {p : Pool σ} (hplan : p.plan = r.pool.plan)
    (hworkers : p.workers = r.pool.workers) (hsignals : p.signals = r.pool.signals)
    (hpool : r'.pool = p.requestShutdown) : Spared r r' := by
  refine ⟨?_, ?_, ?_⟩
  · rw [hpool, Pool.requestShutdown_plan, hplan]
  · rw [hpool, Pool.requestShutdown_workers, hworkers]
  · rw [hpool, ← hsignals]
    exact .requestShutdown p

/-- Of the moves of a run itself only the launch changes the workers of its pool. -/
lemma Advanced.spared (hs : Advanced s r q) :
    Spared r q ∨
      r.phase = .selecting ∧ ∃ db, q = (r.did (.selected s.config.database)).launch s db := by
  -- the launch is the only move that touches the workers
  cases hs with
  | launch hp hdb hb => exact .inr ⟨hp, _, rfl⟩
  | release hp =>
      refine .inl ⟨rfl, rfl, ?_⟩
      show Raised r.pool.signals r.pool.signals.start
      rw [Signals.start_eq]
      exact ⟨id, fun h => by simp [h], id⟩
  | gathered hp hover => exact .inl (.requestShutdown (p := r.pool.note .allJoined) rfl rfl rfl rfl)
  | @overflowed db o hp hdb ho =>
      have hpool : ((r.looked s db).finish (.broken (.overflow o))).pool = _ := looked_pool s r db
      exact .inl (.of_eq (by rw [hpool]) (by rw [hpool]) (by rw [hpool]))
  | @looked db report hp hdb ho =>
      have hpool : ((r.looked s db).goTo
        (.reporting (db.keyExists s.config.sentinelKey r.pool.store).1 report)).pool = _ :=
        looked_pool s r db
      exact .inl (.of_eq (by rw [hpool]) (by rw [hpool]) (by rw [hpool]))
  | @reported sentinel report text hp ht =>
      have hpool := putText_goTo_pool r report text
      exact .inl (.of_eq (by rw [hpool]) (by rw [hpool]) (by rw [hpool]))
  | _ => exact .inl (.of_eq rfl rfl rfl)

/-- What an event does to the pool of a run: an event of the pool, the launch of its workers, or
something besides. -/
lemma Stepped.pool (hs : Stepped s r e q) :
    (∃ db d, q.pool = r.pool.step db d) ∨ Spared r q ∨
      r.phase = .selecting ∧ ∃ db, q = (r.did (.selected s.config.database)).launch s db := by
  cases hs with
  | control hs => exact .inr hs.spared
  | @turn i db hdb => exact .inl ⟨db, .turn i, rfl⟩
  | @interrupt i db hdb => exact .inl ⟨db, .interrupt i, rfl⟩
  | link i => exact .inr (.inl (.of_eq rfl rfl rfl))
  | @ring due limit ha hl hdue =>
      exact .inr (.inl
        (.requestShutdown (p := r.pool.note (.deadlineReached limit)) rfl rfl rfl rfl))
  | cancel => exact .inr (.inl (.requestShutdown (p := r.pool) rfl rfl rfl rfl))
  | tick d => exact .inr (.inl (.of_eq rfl rfl rfl))
  | idle => exact .inr (.inl (.of_eq rfl rfl rfl))

/-- Every event keeps the plan of the run. -/
lemma Stepped.plan_eq (hs : Stepped s r e q) (h : r.pool.plan = s.config.plan) :
    q.pool.plan = s.config.plan := by
  rcases hs.pool with ⟨db, d, hpool⟩ | hb | ⟨-, db, rfl⟩
  · rw [hpool, (Pool.stepped db r.pool d).plan, h]
  · rw [hb.plan, h]
  · rfl

/-- **Every event of a run winds its pool down** once the signal is raised. A pool that is launched
only then has workers that wait for their start. -/
theorem woundDown_stepped (h : WoundDown s.config.plan r.pool q.pool) (hlive : q.Live)
    (hs : Stepped s q e q') : WoundDown s.config.plan r.pool q'.pool := by
  rcases hs.pool with ⟨db, d, hpool⟩ | hb | ⟨hp, db, rfl⟩
  · rw [hpool]
    exact h.stepped (Pool.stepped db q.pool d)
  · exact h.of_eq hb.plan hb.workers hb.signals
  · have hsize := h.size
    rw [hlive.empty (hlive.selecting hp)] at hsize
    have hnone : r.pool.workers.size = 0 := Nat.le_zero.mp hsize
    refine ⟨rfl, h.shutdown, by rw [hnone]; exact Nat.zero_le _, ?_⟩
    intro i w' hw'
    refine ⟨w', .refl _ w', .inr ⟨Array.getElem?_eq_none (by omega), ?_⟩⟩
    rw [(Pool.launch_workers s.config.plan s.config.failurePolicy s.config.workers s.entropy
      q.pool.store hw').2]
    exact ⟨rfl, rfl⟩

/-- **Once the shutdown is asked for the workers wind down promptly.** From any moment at which the
shutdown signal is raised, and whatever happens afterwards, each worker of a pool issues at most the
one call for which it was cleared before; a worker that waits for its start issues none, whether the
start is signalled afterwards or not, and a worker that pauses issues none. The store, too, sees one
call more of each worker at most. The same is so in a run, whoever has raised the signal: the
deadline, a failure or a cancellation from outside, also before the workers were launched. -/
theorem promptly_wound_down :
    (∀ (db : Database σ) (plan : Plan) (policy : FailurePolicy) (count : ℕ)
        (entropy : ℕ → Generator) (store : σ) (before after : List Pool.Event),
      let start := Pool.launch plan policy count entropy store
      let p := start.run db before
      p.signals.shutdown = true → ∀ i, Prompt plan p (p.run db after) i ∧
        ∀ w, p.workers[i]? = some w → ∃ more,
          start.trace db (before ++ after) i = start.trace db before i ++ more ∧ more.length ≤ 1 ∧
            (w.stage = .parked ∨ (∃ k wake, w.stage = .pausing k wake) → more = [])) ∧
    ∀ (s : Setting σ) (store : σ) (before after : List Event),
      let r := (begin s store).run s before
      r.pool.signals.shutdown = true →
        ∀ i, Prompt s.config.plan r.pool (r.run s after).pool i := by
  refine ⟨?_, ?_⟩
  · intro db plan policy count entropy store before after start p hshutdown i
    have hlaunched : Pool.Launched plan entropy p :=
      Pool.run_induction (fun h hs => h.stepped hs) (.launch plan policy count entropy store) before
    have hwound : WoundDown plan p (p.run db after) :=
      Pool.run_induction (fun h hs => h.stepped hs) (.refl hlaunched.plan_eq hshutdown) after
    exact ⟨hwound.prompt (fun hw => ⟨_, hlaunched.sound hw⟩) i,
      fun w hw => hwound.trace policy count entropy store before after hw⟩
  · intro s store before after r hshutdown i
    have hlive : r.Live := run_induction (fun h hs => h.stepped hs) (.begin s store) before
    have hplan : r.pool.plan = s.config.plan :=
      run_induction (P := fun q => q.pool.plan = s.config.plan) (fun h hs => hs.plan_eq h) rfl
        before
    -- a run launches only while it selects, and the shutdown is known to what it launches
    have hwound : WoundDown s.config.plan r.pool (r.run s after).pool ∧ (r.run s after).Live :=
      run_induction (P := fun q => WoundDown s.config.plan r.pool q.pool ∧ q.Live)
        (fun h hs => ⟨woundDown_stepped h.1 h.2 hs, h.2.stepped hs⟩) ⟨.refl hplan hshutdown, hlive⟩
        after
    refine hwound.1.prompt (fun hw => ?_) i
    obtain ⟨g, hg⟩ := hlive.sound hw
    exact ⟨g, hplan ▸ hg⟩

/-- Three workers when the signal is raised: the first one is cleared for its first call and still
issues it, the second one pauses and the third one waits for its start, and neither issues a call,
though the start is signalled again. In a run that is cancelled before its workers are launched
there are no calls at all. -/
theorem promptly_wound_down_at_three_stages :
    let plan : Plan := ⟨"shared", "guard", "value", 5, 1, Duration.ofSeconds 1, 2, true, none⟩
    let entropy : ℕ → Generator := fun _ => ⟨Key.ofSeed 0, 0, [0, 0]⟩
    let start := Pool.launch plan .abort 3 entropy Memory.fresh
    let db := Memory.databaseOf 0
    let before : List Pool.Event :=
      [.start, .turn 0, .turn 0, .turn 1, .turn 1, .turn 1, .turn 1, .cancel]
    let after := [.turn 0, .turn 0, .tick 1000000000, .turn 0, .turn 0, .turn 1, .turn 1, .start,
      .turn 2] ++ (List.range 3).map .turn
    let p := start.run db before
    let q := p.run db after
    let s : Setting Memory := ⟨{ workers := 2 }, 1, entropy, Memory.connection, fun _ => .ok "", []⟩
    let r := (begin s Memory.fresh).run s [.cancel]
    let r' := r.run s [.control, .control, .turn 0, .turn 0, .turn 1, .turn 1]
    (p.stage? 0 = some (.cleared 1) ∧ p.stage? 1 = some (.pausing 1 1000000000) ∧
      p.stage? 2 = some .parked ∧ q.isOver = true ∧ (q.issued 0).length = 1 ∧ Prompt plan p q 0 ∧
      q.issued 1 = p.issued 1 ∧ q.issued 2 = [] ∧
      start.trace db (before ++ after) 1 = start.trace db before 1) ∧
    r'.pool.isOver = true ∧ r'.pool.issued 1 = [] := by
  intro plan entropy start db before after p q s r r'
  have hpausing : p.stage? 1 = some (.pausing 1 1000000000) := by decide +kernel
  have hparked : p.stage? 2 = some .parked := by decide +kernel
  have hpool := promptly_wound_down.1 db plan .abort 3 entropy Memory.fresh before after
    (by decide +kernel)
  have hprompt (i : ℕ) : Prompt plan p q i := (hpool i).1
  refine ⟨⟨by decide +kernel, hpausing, hparked, by decide +kernel, by decide +kernel, hprompt 0,
    (hprompt 1).pausing 1 _ hpausing, (hprompt 2).parked (.inr hparked), ?_⟩, by decide +kernel, ?_⟩
  · obtain ⟨w, hw, hs⟩ := Option.map_eq_some_iff.mp hpausing
    obtain ⟨more, hmore, -, hnone⟩ := (hpool 1).2 w hw
    rw [hmore, hnone (.inr ⟨1, _, hs⟩), List.append_nil]
  · have hcancelled : r.pool.signals.shutdown = true := by decide +kernel
    have hprompt : Prompt s.config.plan r.pool r'.pool 1 :=
      promptly_wound_down.2 s Memory.fresh [.cancel] _ hcancelled 1
    exact hprompt.parked (.inl (by decide +kernel))

end Run

end StoreSoak
