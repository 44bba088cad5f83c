import StoreSoak.Proofs.Run.VirtualClock
import StoreSoak.Proofs.Worker.Outcome
import StoreSoak.Proofs.Worker.Pace

/-!
Timed runs in closed form.

Where calls take no time, a run without chains goes by its pauses. Its workers all pause at the same
times, and they end at the same time: with the last pause, or at the deadline where that falls
within a pause.

* `Pool.Flawless`: no worker of a pool has failed. A run that ends so was so at every moment.
* `Pool.Stepped.paced`: a move in a pool keeps every worker at its pace.
* `Moment` tells the moments of a run apart: before its workers are there, before and after the
  deadline, and after its workers are gone. `OnPace` is the invariant, and `OnPace.stepped` says
  that every event on the clock keeps it.
* `Timed`: the conditions under which a run has a closed form; `Punctual`: what the time tells about
  a worker.
* `timed_run`: such a run comes to its end, and every worker does what `Pace.timing` says.
-/

namespace StoreSoak

namespace Worker

variable {p : Plan} {signals : Signals} {now : ℕ} {w v : Worker} {e : Exit}

/-- A worker that leaves is gone after its turn. -/
lemma Turned.of_leaving (ht : w.Turned p signals now v) (hs : w.stage = .leaving e) :
    v.stage = .gone e ∧ v.index = w.index := by
  have hindex := ht.moved.index
  cases ht with
  | finish hs' =>
      rw [hs] at hs'
      cases hs'
      exact ⟨by simp only [Worker.finish, hs, Worker.goTo], hindex⟩
  | release hs' _ => rw [hs] at hs'; cases hs'
  | check hs' => rw [hs] at hs'; cases hs'
  | issue hs' => rw [hs] at hs'; cases hs'
  | receive hs' _ => rw [hs] at hs'; cases hs'
  | resume hs' => rw [hs] at hs'; cases hs'
  | interrupt hs' _ => rw [hs] at hs'; cases hs'

end Worker

namespace Pool

variable {σ : Type} {db : Database σ} {p p' : Pool σ} {e : Event} {plan : Plan}
  {entropy : ℕ → Generator} {deadline : Option ℕ}

/-- No worker that has left its loop has failed. -/
def Flawless (p : Pool σ) : Prop :=
  ∀ (i : ℕ) (w : Worker) (x : Exit), p.workers[i]? = some w →
    (w.stage = .leaving x ∨ w.stage = .gone x) → x.failure? w.index = none

/-- A failure is never taken back. -/
lemma Flawless.of_stepped (h : p'.Flawless) (hs : Stepped db p e p') : p.Flawless := by
  intro i w x hw hx
  have hi : i < p'.workers.size := by
    rw [hs.size]
    exact (Array.getElem?_eq_some_iff.mp hw).1
  obtain ⟨w', hw'⟩ : ∃ w', p'.workers[i]? = some w' := ⟨_, Array.getElem?_eq_getElem hi⟩
  obtain ⟨v, hv, hsame | ht⟩ := hs.turned hw'
  · rw [hw] at hv
    cases hv
    subst hsame
    exact h i w' x hw' hx
  · rw [hw] at hv
    cases hv
    rcases hx with hx | hx
    · obtain ⟨hgone, hindex⟩ := ht.of_leaving hx
      rw [← hindex]
      exact h i w' x hw' (.inr hgone)
    · exact absurd hx ht.not_gone

lemma Flawless.of_eq (h : p'.Flawless) (hworkers : p'.workers = p.workers) : p.Flawless := by
  intro i w x hw hx
  rw [← hworkers] at hw
  exact h i w x hw hx

/-- Where the reports tell of no failure nobody has failed. -/
lemma flawless_of_reports {rs : List WorkerReport} (h : p.reports? = some rs)
    (hfailure : ∀ r ∈ rs, r.failure = none) : p.Flawless := by
  intro i w x hw hx
  have hi : i < rs.length := by
    rw [length_reports h]
    exact (Array.getElem?_eq_some_iff.mp hw).1
  have hreport := getElem?_reports h i
  rw [List.getElem?_eq_getElem hi] at hreport
  obtain ⟨v, y, hv, hgone, heq⟩ := reportOf?_eq_some_iff.mp hreport.symm
  rw [hw] at hv
  cases hv
  have hnone := hfailure rs[i] (List.getElem_mem hi)
  rw [← heq] at hnone
  rcases hx with hx | hx <;> rw [hgone] at hx <;> cases hx
  exact hnone

/-- A move of a worker takes no time. -/
lemma Stepped.now_eq (hs : Stepped db p e p') (he : ∀ d, e ≠ .tick d) : p'.now = p.now := by
  cases hs with
  | tick d => exact absurd rfl (he d)
  | _ => simp

/-- Where nobody has failed, nobody asks for the shutdown. -/
lemma Stepped.shutdown_eq (hs : Stepped db p e p') (hflawless : p.Flawless)
    (he : e ≠ .cancel ∧ e ≠ .dropLifecycle) : p'.signals.shutdown = p.signals.shutdown := by
  rcases hs.signals with h | h | ⟨hdrop, -⟩ | ⟨-, hcancel | ⟨i, w, x, haborts, -⟩⟩
  · rw [h]
  · rw [h, Signals.start_eq]
  · exact absurd hdrop he.2
  · exact absurd hcancel he.1
  · have hnone := hflawless i w x haborts.worker (.inl haborts.stage)
    have hsome := haborts.failure
    rw [hnone] at hsome
    cases hsome

/-- **A move keeps every worker at its pace**, as long as nobody fails and no shutdown is asked for
but at a deadline between the ends of two pauses. -/
theorem Stepped.paced (h : Launched plan entropy p) (hlifecycle : p.signals.lifecycle = true)
    (hflawless : p'.Flawless) (hs : Stepped db p e p') (he : ∀ d, e ≠ .tick d)
    (hclock : p.signals.shutdown = false ∨
      deadline = some p.now ∧ ¬ plan.throttlePause.waited ∣ p.now)
    (hpaced : ∀ {i : ℕ} {w : Worker}, p.workers[i]? = some w →
      w.Paced (.of plan deadline) p.now) :
    ∀ {i : ℕ} {w : Worker}, p'.workers[i]? = some w → w.Paced (.of plan deadline) p'.now := by
  rw [hs.now_eq he]
  -- a step moves one worker at most, and the others keep their pace
  have hreplace {i : ℕ} {w v : Worker} (hw : p.workers[i]? = some w)
      (hv : v.Paced (.of plan deadline) p.now) {j : ℕ} {w' : Worker}
      (hj : (p.workers.setIfInBounds i v)[j]? = some w') :
      w'.Paced (.of plan deadline) p.now :=
    forall_replace hw hv hpaced hj
  intro j w' hw'
  cases hs with
  | tick d => exact absurd rfl (he d)
  | start => exact hpaced hw'
  | cancel =>
      rw [requestShutdown_workers] at hw'
      exact hpaced hw'
  | dropLifecycle => exact hpaced hw'
  | idle => exact hpaced hw'
  | @release i w go hw hs hgo =>
      have hshutdown := hclock.resolve_right fun hlate =>
        hlate.2 ((hpaced hw).dvd_of_busy (by simp [hs]) (by simp [hs]))
      rw [Signals.go_of_started (.inr hlifecycle) hshutdown hgo] at hw'
      exact hreplace hw ((hpaced hw).release hs) hw'
  | @check i k w hw hs =>
      have hshutdown := hclock.resolve_right fun hlate =>
        hlate.2 ((hpaced hw).dvd_of_busy (by simp [hs]) (by simp [hs]))
      rw [hshutdown, h.plan_eq] at hw'
      exact hreplace hw ((hpaced hw).check (h.sound hw) hs) hw'
  | @issue i k w hw hs =>
      rw [h.plan_eq] at hw'
      exact hreplace hw ((hpaced hw).issue hs) hw'
  | @receive i k since f w hw hs reply hr =>
      refine hreplace hw ?_ hw'
      rw [h.plan_eq]
      refine (hpaced hw).receive (h.sound hw) hs reply.1 fun x hx =>
        ⟨(w.receive plan p.now reply.1).1.index, hflawless i _ x ?_ (.inl hx)⟩
      rw [put_workers, getElem?_replace hw, if_pos rfl, h.plan_eq]
  | @resume i k wake w hw hs hwake => exact hreplace hw ((hpaced hw).resume hs hwake) hw'
  | @retire i w x hw hs =>
      rw [retire_workers] at hw'
      exact hreplace hw ((hpaced hw).finish hs) hw'
  | @interrupt i w hw hshutdown =>
      refine hreplace hw ?_ hw'
      obtain ⟨hdeadline, hdvd⟩ := hclock.resolve_left (by rw [hshutdown]; exact Bool.noConfusion)
      subst hdeadline
      cases hs : w.stage with
      | pausing k wake => exact (hpaced hw).interrupt (h.sound hw) hs hdvd
      | _ =>
          rw [Worker.interrupt, hs]
          exact hpaced hw

end Pool

namespace Run

variable {σ : Type} {s : Setting σ} {store : σ} {r r' : Run σ} {e : Event}

/-- No failure of a worker is taken back in a run. -/
lemma flawless_of_stepped (h : r'.pool.Flawless) (hlive : r.Live) (hs : Stepped s r e r') :
    r.pool.Flawless := by
  rcases hs.pool with ⟨db, d, hpool⟩ | hspared | ⟨hp, -⟩
  · rw [hpool] at h
    exact h.of_stepped (Pool.stepped db r.pool d)
  · exact h.of_eq hspared.workers
  · intro i w x hw
    rw [hlive.empty (hlive.selecting hp)] at hw
    cases hw

/-! ### The moments of a run -/

/-- The deadline of a run in nanoseconds, as long as a wait can last. -/
def deadline (s : Setting σ) : Option ℕ :=
  s.config.deadline.map Duration.waited

/-- The pace of the workers of a run. -/
def pace (s : Setting σ) : Pace :=
  .of s.config.plan (deadline s)

/-- What it takes for a run to have a closed form: its workers can start, it has no chains, there is
something to their pauses, and no pause ends at the deadline. -/
structure Timed (s : Setting σ) (store : σ) : Prop where
  database : ∃ db, s.connection.database s.config.database store = .ok db
  room : crowding? s = none
  chains : chainCount s = 0
  pause : 0 < s.config.throttlePause.waited
  apart : ∀ d, deadline s = some d → ¬ s.config.throttlePause.waited ∣ d

/-- At first a run has the store as it was, and from then on all its workers. -/
def Manned (s : Setting σ) (store : σ) (r : Run σ) : Prop :=
  r.phase = .selecting ∧ r.pool.store = store ∨
    r.phase ≠ .selecting ∧ r.pool.workers.size = s.config.workers

/-- A run that has its database and room for its workers launches them. -/
lemma Advanced.of_selecting (ht : Timed s store) (hs : Advanced s r r')
    (hp : r.phase = .selecting) (hstore : r.pool.store = store) :
    ∃ db, r' = (r.did (.selected s.config.database)).launch s db := by
  obtain ⟨db, hdb⟩ := ht.database
  rw [← hstore] at hdb
  cases hs with
  | refused _ hdb' =>
      rw [hdb] at hdb'
      cases hdb'
  | crowded _ _ hb =>
      rw [ht.room] at hb
      cases hb
  | launch => exact ⟨_, rfl⟩
  | _ => simp_all

lemma Manned.stepped (ht : Timed s store) (h : Manned s store r) (hlive : r.Live)
    (hs : Stepped s r e r') : Manned s store r' := by
  rcases h with ⟨hp, hstore⟩ | ⟨hp, hsize⟩
  -- without a database nobody has a turn yet
  · have hnone {db : Database σ} : r.database ≠ some db := by
      rw [hlive.selecting hp]
      exact (Option.some_ne_none db).symm
    cases hs with
    | control hs =>
        obtain ⟨db, rfl⟩ := hs.of_selecting ht hp hstore
        refine .inr ⟨by simp [launch], ?_⟩
        show ((Array.range s.config.workers).map _).size = s.config.workers
        rw [Array.size_map, Array.size_range]
    | turn hdb => exact absurd hdb hnone
    | interrupt hdb => exact absurd hdb hnone
    | ring => exact .inl ⟨hp, (Pool.requestShutdown_store _).trans hstore⟩
    | cancel => exact .inl ⟨hp, (Pool.requestShutdown_store _).trans hstore⟩
    | _ => exact .inl ⟨hp, hstore⟩
  · refine .inr ⟨phase_ne_selecting hs hp, ?_⟩
    rcases hs.pool with ⟨db, d, hpool⟩ | hspared | ⟨hselecting, -⟩
    · rw [hpool, (Pool.stepped db r.pool d).size, hsize]
    · rw [hspared.workers, hsize]
    · exact absurd hselecting hp

/-- The moments of a run on its clock. -/
inductive Moment (s : Setting σ) (r : Run σ) : Prop where
  | selecting (hp : r.phase = .selecting) (hnow : r.pool.now = 0) (halarm : r.alarm = none)
      (hquiet : r.pool.signals.shutdown = false)
  /-- The deadline, if there is one, is still to come. -/
  | early (hp : r.phase = .launched ∨ r.phase = .gathering) (halarm : r.alarm = deadline s)
      (hquiet : r.pool.signals.shutdown = false)
  /-- It is the time of the deadline, which was noticed. -/
  | late (hp : r.phase = .launched ∨ r.phase = .gathering) (halarm : r.alarm = none)
      (hshutdown : r.pool.signals.shutdown = true) (hdeadline : deadline s = some r.pool.now)
  | done (hp : r.phase ≠ .selecting) (hover : r.pool.isOver = true)

/-- The invariant of a timed run. -/
structure OnPace (s : Setting σ) (store : σ) (r : Run σ) : Prop where
  way : OnItsWay s r
  manned : Manned s store r
  paced : ∀ {i : ℕ} {w : Worker}, r.pool.workers[i]? = some w → w.Paced (pace s) r.pool.now
  early : ∀ d, deadline s = some d → r.pool.now ≤ d
  moment : Moment s r

lemma OnPace.begin (s : Setting σ) (store : σ) : OnPace s store (begin s store) := by
  refine ⟨.begin s store, .inl ⟨rfl, rfl⟩, fun {i w} hw => ?_, fun d _ => Nat.zero_le d,
    .selecting rfl rfl rfl rfl⟩
  cases hw

/-- What leaves the workers and the time alone keeps everybody at their pace. -/
lemma OnPace.beside (h : OnPace s store r) (hway : OnItsWay s r') (hmanned : Manned s store r')
    (hworkers : r'.pool.workers = r.pool.workers) (hnow : r'.pool.now = r.pool.now)
    (hmoment : Moment s r') : OnPace s store r' := by
  refine ⟨hway, hmanned, fun {i w} hw => ?_, fun d hd => ?_, hmoment⟩
  · rw [hworkers] at hw
    rw [hnow]
    exact h.paced hw
  · rw [hnow]
    exact h.early d hd

/-- A run that waits for its workers, or is about to. -/
lemma Advanced.of_waiting (hs : Advanced s r r') (hp : r.phase = .launched ∨ r.phase = .gathering) :
    r' = r.release s ∨ r.pool.isOver = true ∧ r' = r.gathered := by
  cases hs with
  | release hp' => exact .inl rfl
  | gathered hp' hover => exact .inr ⟨hover, rfl⟩
  | _ => simp_all

/-- The moves of a run itself keep everybody at their pace. -/
lemma OnPace.advanced (ht : Timed s store) (h : OnPace s store r) (hs : Advanced s r r') :
    OnPace s store r' := by
  have hway := h.way.stepped (.control hs)
  have hmanned := h.manned.stepped ht h.way.live (.control hs)
  have hselecting := phase_ne_selecting (.control hs)
  -- a move before the workers are gone gives the start or gathers them
  have hwaiting (hp : r.phase = .launched ∨ r.phase = .gathering)
      (hrelease : Moment s (r.release s)) : OnPace s store r' := by
    have hne : r.phase ≠ .selecting := by rcases hp with hp | hp <;> simp [hp]
    rcases hs.of_waiting hp with rfl | ⟨hover, rfl⟩
    · exact h.beside hway hmanned rfl rfl hrelease
    · have hworkers : r.gathered.pool.workers = r.pool.workers :=
        Pool.requestShutdown_workers (r.pool.note .allJoined)
      exact h.beside hway hmanned hworkers hs.now
        (.done (hselecting hne) (isOver_of_eq hworkers hover))
  cases h.moment with
  | selecting hp hnow halarm hquiet =>
      obtain ⟨-, hstore⟩ := h.manned.resolve_right fun hmanned => hmanned.1 hp
      obtain ⟨db, rfl⟩ := hs.of_selecting ht hp hstore
      refine ⟨hway, hmanned, fun {i w} hw => ?_, ?_, .early (.inl rfl) ?_ hquiet⟩
      · rw [(Pool.launch_workers s.config.plan s.config.failurePolicy s.config.workers s.entropy
          r.pool.store hw).2]
        exact hnow
      · show ∀ d, deadline s = some d → r.pool.now ≤ d
        rw [hnow]
        exact fun d _ => Nat.zero_le d
      · show s.config.deadline.map (fun d => r.pool.now + d.waited) = s.config.deadline.map _
        simp only [hnow, Nat.zero_add]
  | early hp halarm hquiet =>
      refine hwaiting hp (.early (.inr rfl) halarm ?_)
      show r.pool.signals.start.shutdown = false
      rw [Signals.start_eq]
      exact hquiet
  | late hp halarm hshutdown hdeadline =>
      refine hwaiting hp (.late (.inr rfl) halarm ?_ hdeadline)
      show r.pool.signals.start.shutdown = true
      rw [Signals.start_eq]
      exact hshutdown
  | done hp hover =>
      have hspared := hs.spared.resolve_right fun hlaunch => hp hlaunch.1
      exact h.beside hway hmanned hspared.workers hs.now
        (.done (hselecting hp) (isOver_of_eq hspared.workers hover))

/-- The moves of the workers keep everybody at their pace. -/
lemma OnPace.movePool (ht : Timed s store) (h : OnPace s store r) {db : Database σ}
    (hdb : r.database = some db) {d : Pool.Event} (hd : (∃ i, d = .turn i) ∨ ∃ i, d = .interrupt i)
    (hway : OnItsWay s { r with pool := r.pool.step db d })
    (hmanned : Manned s store { r with pool := r.pool.step db d })
    (hflawless : (r.pool.step db d).Flawless) :
    OnPace s store { r with pool := r.pool.step db d } := by
  have hs := Pool.stepped db r.pool d
  have hmove : (∀ t, d ≠ .tick t) ∧ d ≠ .cancel ∧ d ≠ .dropLifecycle := by
    rcases hd with ⟨i, rfl⟩ | ⟨i, rfl⟩ <;> simp
  have hnow := hs.now_eq hmove.1
  have hshutdown := hs.shutdown_eq (hflawless.of_stepped hs) hmove.2
  have hpaced (hclock : r.pool.signals.shutdown = false ∨
      deadline s = some r.pool.now ∧ ¬ s.config.throttlePause.waited ∣ r.pool.now) :
      ∀ {i : ℕ} {w : Worker}, (r.pool.step db d).workers[i]? = some w →
        w.Paced (pace s) (r.pool.step db d).now :=
    hs.paced h.way.launched h.way.live.lifecycle hflawless hmove.1 hclock h.paced
  have hearly : ∀ t, deadline s = some t → (r.pool.step db d).now ≤ t := by
    rw [hnow]
    exact h.early
  cases h.moment with
  | selecting hp _ _ _ =>
      rw [h.way.live.selecting hp] at hdb
      cases hdb
  | early hp halarm hquiet =>
      exact ⟨hway, hmanned, hpaced (.inl hquiet), hearly,
        .early hp halarm (hshutdown.trans hquiet)⟩
  | late hp halarm hraised hdeadline =>
      exact ⟨hway, hmanned, hpaced (.inr ⟨hdeadline, ht.apart _ hdeadline⟩), hearly,
        .late hp halarm (hshutdown.trans hraised) (by rw [hnow]; exact hdeadline)⟩
  | done hp hover =>
      have hworkers := (hs.of_isOver hover).1
      exact h.beside hway hmanned hworkers hnow (.done hp (isOver_of_eq hworkers hover))

/-- The deadline keeps everybody at their pace. -/
lemma OnPace.ring (h : OnPace s store r) {due : ℕ} {limit : Duration} (halarm : r.alarm = some due)
    (hdue : due ≤ r.pool.now)
    (hway : OnItsWay s { r with
      alarm := none, pool := (r.pool.note (.deadlineReached limit)).requestShutdown })
    (hmanned : Manned s store { r with
      alarm := none, pool := (r.pool.note (.deadlineReached limit)).requestShutdown }) :
    OnPace s store { r with
      alarm := none, pool := (r.pool.note (.deadlineReached limit)).requestShutdown } := by
  have hworkers := Pool.requestShutdown_workers (r.pool.note (.deadlineReached limit))
  have hnow := Pool.requestShutdown_now (r.pool.note (.deadlineReached limit))
  refine h.beside hway hmanned hworkers hnow ?_
  cases h.moment with
  | selecting hp _ hnone _ =>
      rw [hnone] at halarm
      cases halarm
  | early hp hsame hquiet =>
      have hdeadline : deadline s = some due := hsame.symm.trans halarm
      have heq : due = r.pool.now := Nat.le_antisymm hdue (h.early due hdeadline)
      refine .late hp rfl (Pool.requestShutdown_shutdown _ h.way.live.lifecycle) ?_
      rw [hdeadline, heq]
      exact congrArg some hnow.symm
  | late hp hnone _ _ =>
      rw [hnone] at halarm
      cases halarm
  | done hp hover => exact .done hp (isOver_of_eq hworkers hover)

/-- While a run rests everybody who is still there pauses, and the shutdown was not asked for. -/
lemma Rests.pausing {d : ℕ} (hrests : r.Rests (fun _ => 0) d) (hpos : 0 < d) (hlive : r.Live)
    {c : Pace} {i : ℕ} {w : Worker} (hw : r.pool.workers[i]? = some w)
    (hpaced : w.Paced c r.pool.now) (hpresent : ∀ x, w.stage ≠ .gone x) :
    r.pool.signals.shutdown = false ∧ ∃ k wake, w.stage = .pausing k wake ∧
      r.pool.now + d ≤ wake := by
  have hstarted := (hlive.started hrests.phase).started
  -- nobody can go on at once
  have hready (hdue : r.pool.due (fun _ => 0) w = some r.pool.now) : False := by
    have hlater := hrests.workers i w _ hw hdue
    omega
  cases hs : w.stage with
  | parked =>
      refine (hready ?_).elim
      rw [Pool.due, hs]
      exact if_pos (Option.isSome_iff_ne_none.mpr hstarted)
  | looping k => exact (hready (by rw [Pool.due, hs])).elim
  | cleared k => exact (hready (by rw [Pool.due, hs])).elim
  | calling k f since =>
      obtain ⟨hsince, -⟩ := hpaced.of_calling hs
      refine (hready ?_).elim
      rw [Pool.due, hs, hsince]
      exact congrArg some (Nat.max_self _)
  | pausing k wake =>
      cases hshutdown : r.pool.signals.shutdown with
      | true =>
          refine (hready ?_).elim
          rw [Pool.due, hs]
          exact if_pos hshutdown
      | false =>
          have hdue : r.pool.due (fun _ => 0) w = some (max r.pool.now wake) := by
            rw [Pool.due, hs]
            exact if_neg (by rw [hshutdown]; exact Bool.false_ne_true)
          have hlater := hrests.workers i w _ hw hdue
          exact ⟨rfl, k, wake, rfl, by omega⟩
  | leaving x => exact (hready (by rw [Pool.due, hs])).elim
  | gone x => exact absurd hs (hpresent x)

/-- Time that goes by while everything waits keeps everybody at their pace: at such a moment all
workers pause, since they would all have left at the same time. -/
lemma OnPace.tick (h : OnPace s store r) {d : ℕ} (hpos : 0 < d)
    (hrests : r.Rests (fun _ => 0) d)
    (hway : OnItsWay s { r with pool := { r.pool with now := r.pool.now + d } })
    (hmanned : Manned s store { r with pool := { r.pool with now := r.pool.now + d } }) :
    OnPace s store { r with pool := { r.pool with now := r.pool.now + d } } := by
  have hlive := h.way.live
  obtain ⟨j, v, hv, hpresent⟩ :=
    Pool.exists_present (p := r.pool) (by rw [hrests.isOver]; exact Bool.false_ne_true)
  obtain ⟨hquiet, k, wake, hpausing, hwake⟩ :=
    hrests.pausing hpos hlive hv (h.paced hv) hpresent
  cases h.moment with
  | selecting hp _ _ _ =>
      rw [hrests.phase] at hp
      cases hp
  | early hp halarm _ =>
      have hdeadline : deadline s ≠ some r.pool.now := by
        intro heq
        have hlater := hrests.alarm r.pool.now (halarm.trans heq)
        omega
      refine ⟨hway, hmanned, fun {i w} hw => ?_, fun t ht => hrests.alarm t (halarm.trans ht),
        .early hp halarm hquiet⟩
      by_cases hgone : ∃ x, w.stage = .gone x
      · obtain ⟨x, hx⟩ := hgone
        exact ((h.paced hw).not_left (.inr hx) hdeadline (h.paced hv) (h.way.launched.sound hv)
          hpausing (by omega)).elim
      · obtain ⟨-, k', wake', hs, hle⟩ :=
          hrests.pausing hpos hlive hw (h.paced hw) (not_exists.mp hgone)
        exact (h.paced hw).tick hs hle
  | late _ _ hshutdown _ =>
      rw [hshutdown] at hquiet
      cases hquiet
  | done _ hover =>
      rw [hrests.isOver] at hover
      cases hover

/-- **Every event on the clock keeps the invariant.** -/
theorem OnPace.stepped (ht : Timed s store) (h : OnPace s store r) (hs : Stepped s r e r')
    (hcancel : e ≠ .cancel) (hrests : ∀ d, e = .tick d → 0 < d → r.Rests (fun _ => 0) d)
    (hflawless : r'.pool.Flawless) : OnPace s store r' := by
  have hway := h.way.stepped hs
  have hmanned := h.manned.stepped ht h.way.live hs
  cases hs with
  | control hs => exact h.advanced ht hs
  | turn hdb => exact h.movePool ht hdb (.inl ⟨_, rfl⟩) hway hmanned hflawless
  | interrupt hdb => exact h.movePool ht hdb (.inr ⟨_, rfl⟩) hway hmanned hflawless
  | link i =>
      refine h.beside hway hmanned rfl rfl ?_
      cases h.moment with
      | selecting hp hnow halarm hquiet => exact .selecting hp hnow halarm hquiet
      | early hp halarm hquiet => exact .early hp halarm hquiet
      | late hp halarm hshutdown hdeadline => exact .late hp halarm hshutdown hdeadline
      | done hp hover => exact .done hp hover
  | ring halarm hlimit hdue => exact h.ring halarm hdue hway hmanned
  | cancel => exact absurd rfl hcancel
  | tick d =>
      cases d with
      | zero => exact h
      | succ d => exact h.tick (Nat.succ_pos d) (hrests _ rfl (Nat.succ_pos d)) hway hmanned
  | idle => exact h

/-! ### Timed runs -/

/-- A run that ends without a failure was without one at every moment. -/
lemma flawless_of_run {events : List Event} (hlive : r.Live)
    (h : (r.run s events).pool.Flawless) : r.pool.Flawless := by
  induction events generalizing r with
  | nil => exact h
  | cons e events ih =>
      have hs := stepped s r e
      exact flawless_of_stepped (ih (hlive.stepped hs) h) hlive hs

/-- **A run on its clock keeps everybody at their pace**, if nobody fails until its end. -/
theorem run_onPace (ht : Timed s store) (h : OnPace s store r) {events : List Event}
    (hcancel : ∀ e ∈ events, e ≠ .cancel) (hclock : OnClock s (fun _ => 0) r events)
    (hflawless : (r.run s events).pool.Flawless) : OnPace s store (r.run s events) := by
  induction events generalizing r with
  | nil => exact h
  | cons e events ih =>
      obtain ⟨hfirst, hrest⟩ := List.forall_mem_cons.mp hcancel
      have hs := stepped s r e
      have hnext := flawless_of_run (h.way.stepped hs).live hflawless
      exact ih (h.stepped ht hs hfirst hclock.1 hnext) hrest hclock.2 hflawless

/-- What came first of the events on a clock is on the clock. -/
lemma OnClock.left {latency : Latency} {before after : List Event}
    (h : OnClock s latency r (before ++ after)) : OnClock s latency r before := by
  induction before generalizing r with
  | nil => trivial
  | cons e before ih => exact ⟨h.1, ih h.2⟩

/-- A run that has ended has the reports of all its workers. -/
lemma reports_of_ended (ht : Timed s store) {events : List Event} {o : Outcome}
    (ho : ((begin s store).run s events).outcome? = some o) :
    ∃ rs, ((begin s store).run s events).pool.reports? = some rs ∧
      rs.length = s.config.workers := by
  obtain ⟨hlive, hmanned⟩ := run_induction
    (P := fun r => r.Live ∧ Manned s store r)
    (fun h hs => ⟨h.1.stepped hs, h.2.stepped ht h.1 hs⟩)
    ⟨.begin s store, .inl ⟨rfl, rfl⟩⟩ events
  have hcourse := run_course s store events
  generalize (begin s store).run s events = r at *
  have hp : r.phase = .ended o := by
    rw [outcome?] at ho
    split at ho
    · rename_i o' hp
      rw [hp, Option.some.inj ho]
    · cases ho
  have hover : r.pool.isOver = true := by
    rw [Course, hp] at hcourse
    rcases hcourse.1 with hnone | hgone
    · rw [Pool.isOver, hlive.empty hnone]
      exact Array.all_empty
    · exact hgone.isOver
  obtain ⟨rs, hrs⟩ := Pool.exists_reports hover
  obtain ⟨-, hsize⟩ := hmanned.resolve_left fun h => by
    rw [hp] at h
    cases h.1
  exact ⟨rs, hrs, (Pool.length_reports hrs).trans hsize⟩

/-- **Timed runs have a closed form.** Where a run's workers can start, it has no chains, and no
pause ends at its deadline, the run comes to its end on a clock under which calls take no time.
However the events on such a clock are interleaved: once the run has ended there is a report of
every worker, and if none of them tells of a failure, each worker has done what the closed form
says. It completes all iterations with a pause after every interval, unless the deadline falls
within one of its pauses; then it is stopped at the deadline, and that pause is its last. At every
moment up to then the pauses of a worker follow one right after the other, and who has left its loop
has done so at the time of the closed form. A wait of more than thirty years counts as one of thirty
years. -/
theorem timed_run (s : Setting σ) (store : σ) (ht : Timed s store) :
    (∃ events, (∀ e ∈ events, e ≠ .cancel) ∧ OnClock s (fun _ => 0) (begin s store) events ∧
      complete s (fun _ => 0) none (begin s store) = (begin s store).run s events ∧
      ∃ o, ((begin s store).run s events).outcome? = some o) ∧
    ∀ events, (∀ e ∈ events, e ≠ .cancel) → OnClock s (fun _ => 0) (begin s store) events →
      ∀ o, ((begin s store).run s events).outcome? = some o →
        ∃ rs, ((begin s store).run s events).pool.reports? = some rs ∧
          rs.length = s.config.workers ∧
          ((∀ rep ∈ rs, rep.failure = none) →
            (∀ rep ∈ rs, rep.Keeps (pace s).timing) ∧
            ∀ before, before <+: events → ∀ (i : ℕ) (w : Worker),
              ((begin s store).run s before).pool.workers[i]? = some w →
                w.Punctual (pace s) ((begin s store).run s before).pool.now) := by
  refine ⟨complete_onClock s ht.chains (fun _ => 0) store, fun events hcancel hclock o ho => ?_⟩
  obtain ⟨rs, hrs, hlength⟩ := reports_of_ended ht ho
  refine ⟨rs, hrs, hlength, fun hfailure => ?_⟩
  have hflawless := Pool.flawless_of_reports hrs hfailure
  have hpace := run_onPace ht (.begin s store) hcancel hclock hflawless
  refine ⟨fun rep hrep => ?_, ?_⟩
  · obtain ⟨i, w, x, hw, hx, rfl⟩ := (Pool.mem_reports_iff hrs).mp hrep
    exact ((hpace.paced hw).keeps (hpace.way.launched.sound hw) (.inr hx) hpace.early ht.pause).2
  · rintro before ⟨after, rfl⟩ i w hw
    rw [run_append] at hflawless
    have hlive : ((begin s store).run s before).Live :=
      run_induction (fun h hs => h.stepped hs) (.begin s store) before
    have hbefore := run_onPace ht (.begin s store)
      (fun e he => hcancel e (List.mem_append_left _ he)) hclock.left
      (flawless_of_run hlive hflawless)
    exact (hbefore.paced hw).punctual (hbefore.way.launched.sound hw) hbefore.early ht.pause

/-- Three workers that pause for five seconds after every iteration, and a deadline of twelve
seconds: it falls within the third pause. -/
theorem timed_run_at_deadline :
    let s : Setting Memory :=
      { config :=
          { workers := 3, maxIterations := 1000, throttleInterval := 1
            throttlePause := .ofSeconds 5, deadline := some (.ofSeconds 12), chains := .fixed 0
            waitForAck := false, seed := some 7 }
        processors := 1
        entropy := fun _ => Generator.ofSeed 0
        connection := Memory.connection
        reporter := fun _ => .ok ""
        input := [] }
    Timed s Memory.fresh ∧ (pace s).timing = ⟨true, 3, 3, 12000000000⟩ ∧
      ∃ events rs, OnClock s (fun _ => 0) (begin s Memory.fresh) events ∧
        complete s (fun _ => 0) none (begin s Memory.fresh) = (begin s Memory.fresh).run s events ∧
        ((begin s Memory.fresh).run s events).pool.reports? = some rs ∧ rs.length = 3 ∧
        ∀ rep ∈ rs, rep.Keeps ⟨true, 3, 3, 12000000000⟩ := by
  intro s
  have ht : Timed s Memory.fresh :=
    ⟨⟨Memory.databaseOf 0, rfl⟩, by decide, by decide, by decide, by decide⟩
  have htiming : (pace s).timing = ⟨true, 3, 3, 12000000000⟩ := by decide
  obtain ⟨⟨events, hcancel, hclock, hrun, o, ho⟩, hall⟩ := timed_run s Memory.fresh ht
  obtain ⟨rs, hrs, hlength, hkeeps⟩ := hall events hcancel hclock o ho
  have hfailure : ∀ rep ∈ rs, rep.failure = none := by
    have hcomplete : ((complete s (fun _ => 0) none (begin s Memory.fresh)).pool.reports?.getD
        []).all (fun rep => rep.failure = none) = true := by decide +kernel
    rw [hrun, hrs] at hcomplete
    simpa using hcomplete
  rw [htiming] at hkeeps
  exact ⟨ht, htiming, events, rs, hclock, hrun, hrs, hlength, (hkeeps hfailure).1⟩

/-- A pause of more than thirty years is over after thirty: the run has ended, and all its pauses
with it, before the second one could be over. -/
theorem pauses_cut_at_thirty_years :
    let s : Setting Memory :=
      { config :=
          { workers := 1, maxIterations := 3, throttleInterval := 1
            throttlePause := .ofMilliseconds 946080000001, chains := .fixed 0
            waitForAck := false, seed := some 3 }
        processors := 1
        entropy := fun _ => Generator.ofSeed 0
        connection := Memory.connection
        reporter := fun _ => .ok ""
        input := [] }
    let r := complete s (fun _ => 0) none (begin s Memory.fresh)
    (∃ events, (∀ e ∈ events, e ≠ .cancel) ∧ OnClock s (fun _ => 0) (begin s Memory.fresh) events ∧
        r = (begin s Memory.fresh).run s events) ∧
      r.outcome?.isSome = true ∧
      (r.pool.reports?.getD []).map (fun rep => (rep.succeeded, rep.tally.totals.pauses)) =
        [(true, 2)] ∧
      r.pool.now < s.config.throttlePause.nanoseconds *
        (s.config.plan.last / s.config.throttleInterval) := by
  intro s r
  obtain ⟨events, hcancel, hclock, hrun, -⟩ :=
    complete_onClock s (by decide) (fun _ => 0) Memory.fresh
  exact ⟨⟨events, hcancel, hclock, hrun⟩, by decide +kernel, by decide +kernel, by decide +kernel⟩

end Run

end StoreSoak
