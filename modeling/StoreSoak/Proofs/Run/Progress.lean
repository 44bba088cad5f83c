import StoreSoak.Clock
import StoreSoak.Proofs.Pool.Progress
import StoreSoak.Proofs.Run.Steps

/-!
Every run comes to its end.

* `Live`: the invariant of a run that can go on: its workers are sound, and whoever is waited for
  has been asked to come to an end.
* `Phase.left` counts the phases that are left to a run.
* `exists_ended`: from wherever it stands a run can be brought to its end without a cancellation,
  and no longer latency comes about than there is.
-/

namespace StoreSoak

namespace Pressure

/-- So many links and moves of links are left once the shutdown signal is raised. -/
def movesLeft (p : Pressure) : ℕ :=
  (p.links.toList.map fun l => match l.stage with
    | .queued => 3
    | .yielded => 2
    | .counted => 1).sum

/-- After the shutdown signal the first link goes on or leaves. -/
lemma movesLeft_step {p : Pressure} (h : p.isOver = false) :
    (p.step true 0).1.movesLeft < p.movesLeft := by
  obtain ⟨counters, ⟨links⟩⟩ := p
  cases links with
  | nil => cases h
  | cons l links =>
      obtain ⟨chain, stage⟩ := l
      cases stage <;> simp [step, movesLeft]

end Pressure

namespace Run

variable {σ : Type}

/-- So many phases are left to a run in a phase. -/
def phasesLeft : Phase → ℕ
  | .selecting => 8
  | .launched => 7
  | .gathering => 6
  | .retiring => 5
  | .checking => 4
  | .reporting _ _ => 3
  | .acknowledging _ _ => 2
  | .closing _ _ => 1
  | .ended _ => 0

/-- The time for which a worker has waited that gets its answer by an event. -/
def latencyOf (r : Run σ) : Event → ℕ
  | .turn i => r.pool.latencyOf (.turn i)
  | _ => 0

/-- The times after which answers came in, all together. -/
def latency (s : Setting σ) (r : Run σ) : List Event → ℕ
  | [] => 0
  | e :: events => r.latencyOf e + (r.step s e).latency s events

lemma run_append (s : Setting σ) (r : Run σ) (before after : List Event) :
    r.run s (before ++ after) = (r.run s before).run s after := by
  rw [run, run, run, List.foldl_append]

lemma latency_append (s : Setting σ) (r : Run σ) (before after : List Event) :
    r.latency s (before ++ after) = r.latency s before + (r.run s before).latency s after := by
  induction before generalizing r with
  | nil => rw [List.nil_append, latency, Nat.zero_add, run_nil]
  | cons e before ih => rw [List.cons_append, latency, latency, ih, run_cons, Nat.add_assoc]

/-! ### The invariant -/

/-- A run that can go on. -/
structure Live (r : Run σ) : Prop where
  lifecycle : r.pool.signals.lifecycle = true
  sound : ∀ {i : ℕ} {w : Worker}, r.pool.workers[i]? = some w → ∃ g, w.Sound r.pool.plan g
  /-- There are no workers before the database is there. -/
  empty : r.database = none → r.pool.workers = #[]
  selecting : r.phase = .selecting → r.database = none
  database : r.phase = .launched ∨ r.phase = .gathering ∨ r.phase = .retiring ∨
    r.phase = .checking → r.database ≠ none
  fired : r.phase = .gathering → r.pool.signals.fired = true
  shutdown : r.phase = .retiring → r.pool.signals.shutdown = true

section Live

variable {s : Setting σ} {r r' : Run σ}

lemma Live.begin (s : Setting σ) (store : σ) : (begin s store).Live := by
  refine ⟨rfl, ?_, fun _ => rfl, fun _ => rfl, ?_, ?_, ?_⟩
  · intro i w hw
    cases hw
  · rintro (h | h | h | h) <;> cases h
  · intro h
    cases h
  · intro h
    cases h

/-- Whether nobody has to come to an end any more. -/
def late : Phase → Bool
  | .selecting | .launched | .gathering | .retiring => false
  | _ => true

/-- A move to a late phase keeps the invariant, as long as it leaves the workers and the signals
alone. -/
lemma Live.goTo (h : r.Live) (hsignals : r'.pool.signals = r.pool.signals)
    (hworkers : r'.pool.workers = r.pool.workers) (hplan : r'.pool.plan = r.pool.plan)
    (hdb : r'.database = r.database)
    (hlate : late r'.phase = true) (hchecking : r'.phase = .checking → r.database ≠ none) :
    r'.Live := by
  have hnot {phase : Phase} (hearly : late phase = false) : r'.phase ≠ phase := by
    intro hp
    rw [hp, hearly] at hlate
    cases hlate
  refine ⟨by rw [hsignals]; exact h.lifecycle, ?_, ?_, fun hp => absurd hp (hnot rfl), ?_,
    fun hp => absurd hp (hnot rfl), fun hp => absurd hp (hnot rfl)⟩
  · rw [hworkers, hplan]
    exact h.sound
  · rw [hworkers, hdb]
    exact h.empty
  · rw [hdb]
    rintro (hp | hp | hp | hp)
    · exact absurd hp (hnot rfl)
    · exact absurd hp (hnot rfl)
    · exact absurd hp (hnot rfl)
    · exact hchecking hp

/-- A move to a late phase after the look for the sentinel key. -/
lemma Live.looked (h : r.Live) {db : Database σ} (hpool : r'.pool = (r.looked s db).pool)
    (hdb : r'.database = (r.looked s db).database) (hlate : late r'.phase = true)
    (hchecking : r'.phase = .checking → r.database ≠ none) : r'.Live :=
  h.goTo (by rw [hpool, looked_pool]) (by rw [hpool, looked_pool]) (by rw [hpool, looked_pool])
    (hdb.trans (looked_database s r db)) hlate hchecking

/-- What happens in the pool and beside it keeps the invariant. -/
lemma Live.beside (h : r.Live) (hphase : r'.phase = r.phase) (hdb : r'.database = r.database)
    (hsignals : Pool.Raised r.pool.signals r'.pool.signals)
    (hsound : ∀ {i : ℕ} {w : Worker}, r'.pool.workers[i]? = some w → ∃ g, w.Sound r'.pool.plan g)
    (hempty : r.pool.workers = #[] → r'.pool.workers = #[]) : r'.Live := by
  refine ⟨hsignals.lifecycle h.lifecycle, hsound, ?_, ?_, ?_, ?_, ?_⟩
  · rw [hdb]
    exact fun hnone => hempty (h.empty hnone)
  · rw [hdb, hphase]
    exact h.selecting
  · rw [hdb, hphase]
    exact h.database
  · rw [hphase]
    exact fun hp => hsignals.fired (h.fired hp)
  · rw [hphase]
    exact fun hp => hsignals.shutdown (h.shutdown hp)

/-- An event of the pool keeps the invariant. -/
lemma Live.pool (h : r.Live) {db : Database σ} {e : Pool.Event} (he : e ≠ .dropLifecycle) :
    Live { r with pool := r.pool.step db e } := by
  have hs := Pool.stepped db r.pool e
  refine h.beside rfl rfl (.stepped hs he) ?_ ?_
  · intro i w hw
    obtain ⟨v, hv, rfl | hm⟩ := hs.worker hw
    · rw [hs.plan]
      exact h.sound hv
    · obtain ⟨g, hg⟩ := h.sound hv
      rw [hs.plan]
      exact ⟨g, hg.moved hm⟩
  · intro hnone
    have hsize := hs.size
    rw [hnone] at hsize
    exact Array.size_eq_zero_iff.mp hsize

/-- The workers are launched, each with the generator of its place. -/
lemma Live.launch (hlifecycle : r.pool.signals.lifecycle = true) (db : Database σ) :
    (r.launch s db).Live := by
  refine ⟨hlifecycle, ?_, fun hnone => ?_, fun hp' => ?_, fun _ hnone => ?_, fun hp' => ?_,
    fun hp' => ?_⟩
  · intro i w hw
    rw [(Pool.launch_workers s.config.plan s.config.failurePolicy s.config.workers s.entropy
      r.pool.store hw).2]
    exact ⟨_, .launch s.config.plan s.entropy i⟩
  · cases hnone
  · cases hp'
  · cases hnone
  · cases hp'
  · cases hp'

/-- The start is given. It arrives since the run holds its lifecycle. -/
lemma Live.release (h : r.Live) (hp : r.phase = .launched) : (r.release s).Live := by
  have hfired : r.pool.signals.start = { r.pool.signals with fired := true } :=
    if_pos h.lifecycle
  refine ⟨?_, h.sound, h.empty, fun hp' => ?_, fun _ => h.database (.inl hp), fun _ => ?_,
    fun hp' => ?_⟩
  · show r.pool.signals.start.lifecycle = true
    rw [hfired]
    exact h.lifecycle
  · cases hp'
  · show r.pool.signals.start.fired = true
    rw [hfired]
  · cases hp'

/-- The workers are gathered, and the shutdown is asked for. -/
lemma Live.gathered (h : r.Live) (hp : r.phase = .gathering) : r.gathered.Live := by
  have hshutdown : (r.pool.note .allJoined).requestShutdown.signals.shutdown = true :=
    Pool.requestShutdown_shutdown (r.pool.note .allJoined) h.lifecycle
  refine ⟨(Pool.Raised.requestShutdown _).lifecycle h.lifecycle, ?_, ?_, fun hp' => ?_,
    fun _ => h.database (.inr (.inl hp)), fun hp' => ?_, fun _ => hshutdown⟩
  · show ∀ {i : ℕ} {w : Worker},
      (r.pool.note .allJoined).requestShutdown.workers[i]? = some w →
        ∃ g, w.Sound (r.pool.note .allJoined).requestShutdown.plan g
    rw [Pool.requestShutdown_workers, Pool.requestShutdown_plan]
    exact h.sound
  · show r.database = none → (r.pool.note .allJoined).requestShutdown.workers = #[]
    rw [Pool.requestShutdown_workers]
    exact h.empty
  · cases hp'
  · cases hp'

/-- Every move of the run keeps the invariant. -/
lemma Live.advanced (h : r.Live) (hs : Advanced s r r') : r'.Live := by
  cases hs with
  | refused hp hdb => exact h.goTo rfl rfl rfl rfl rfl (by intro hp'; cases hp')
  | crowded hp hdb hb => exact h.goTo rfl rfl rfl rfl rfl (by intro hp'; cases hp')
  | launch hp hdb hb => exact .launch (r := r.did (.selected s.config.database)) h.lifecycle _
  | release hp => exact h.release hp
  | gathered hp hover => exact h.gathered hp
  | retired hp hover =>
      exact h.goTo rfl rfl rfl rfl rfl fun _ => h.database (.inr (.inr (.inl hp)))
  | @overflowed db o hp hdb ho => exact h.looked rfl rfl rfl (by intro hp'; cases hp')
  | @looked db report hp hdb ho => exact h.looked rfl rfl rfl (by intro hp'; cases hp')
  | unreported hp hf => exact h.goTo rfl rfl rfl rfl rfl (by intro hp'; cases hp')
  | @reported sentinel report text hp ht =>
      have hpool := putText_goTo_pool r report text
      refine h.goTo (by rw [hpool]) (by rw [hpool]) (by rw [hpool])
        (putText_database r report text) ?_ fun hp' => ?_
      · rw [Run.goTo]
        dsimp only
        split <;> rfl
      · rw [Run.goTo] at hp'
        dsimp only at hp'
        split at hp' <;> cases hp'
  | unacknowledged hp hf => exact h.goTo rfl rfl rfl rfl rfl (by intro hp'; cases hp')
  | acknowledged hp hf => exact h.goTo rfl rfl rfl rfl rfl (by intro hp'; cases hp')
  | unclosed hp hc => exact h.goTo rfl rfl rfl rfl rfl (by intro hp'; cases hp')
  | closed hp hc => exact h.goTo rfl rfl rfl rfl rfl (by intro hp'; cases hp')

/-- Every event keeps the invariant. -/
theorem Live.stepped (h : r.Live) {e : Event} (hs : Stepped s r e r') : r'.Live := by
  have hraised (p : Pool σ) := Pool.Raised.requestShutdown p
  cases hs with
  | control hs => exact h.advanced hs
  | turn hdb => exact h.pool (by intro he; cases he)
  | interrupt hdb => exact h.pool (by intro he; cases he)
  | link i => exact h.beside rfl rfl ⟨id, id, id⟩ h.sound id
  | @ring due limit ha hl hdue =>
      refine h.beside rfl rfl (hraised (r.pool.note (.deadlineReached limit))) ?_ ?_
      · rw [Pool.requestShutdown_workers, Pool.requestShutdown_plan]
        exact h.sound
      · rw [Pool.requestShutdown_workers]
        exact id
  | cancel =>
      refine h.beside rfl rfl (hraised r.pool) ?_ ?_
      · rw [Pool.requestShutdown_workers, Pool.requestShutdown_plan]
        exact h.sound
      · rw [Pool.requestShutdown_workers]
        exact id
  | tick d => exact h.beside rfl rfl ⟨id, id, id⟩ h.sound id
  | idle => exact h

/-! ### The way to the end -/

/-- A move of the run makes nobody wait for an answer. -/
lemma Live.pending_advanced (h : r.Live) (hs : Advanced s r r') :
    r'.pool.pending = r.pool.pending := by
  have hsame {p : Pool σ} (hworkers : p.workers = r.pool.workers) (hnow : p.now = r.pool.now) :
      p.pending = r.pool.pending := by
    rw [Pool.pending, Pool.pending, Pool.total, Pool.total, hworkers, hnow]
  have hlooked (db : Database σ) : (r.looked s db).pool.pending = r.pool.pending :=
    hsame (looked_workers s r db) (by rw [looked_pool])
  cases hs with
  | @launch db hp hdb hb =>
      -- before the launch there is nobody to wait for, and after it nobody waits yet
      have hbefore : r.pool.pending = 0 := by
        refine Pool.pending_eq_zero fun {i w} hw => ?_
        rw [h.empty (h.selecting hp)] at hw
        cases hw
      rw [hbefore]
      refine Pool.pending_eq_zero fun {i w} hw => ?_
      rw [(Pool.launch_workers s.config.plan s.config.failurePolicy s.config.workers s.entropy
        r.pool.store hw).2]
      rfl
  | gathered hp hover =>
      exact hsame (Pool.requestShutdown_workers _) (Pool.requestShutdown_now _)
  | @overflowed db o hp hdb ho => exact hlooked db
  | @looked db report hp hdb ho => exact hlooked db
  | @reported sentinel report text hp ht =>
      have hpool := putText_goTo_pool r report text
      exact hsame (by rw [hpool]) (by rw [hpool])
  | _ => exact hsame rfl rfl

/-- After a move of the run fewer phases are left to it. -/
lemma Advanced.phasesLeft_lt (hs : Advanced s r r') : phasesLeft r'.phase < phasesLeft r.phase := by
  cases hs with
  | @reported sentinel report text hp ht =>
      show phasesLeft (if s.config.waitForAck && report.failures.isEmpty then
        .acknowledging sentinel report else .closing sentinel report) < phasesLeft r.phase
      rw [hp]
      split
      · exact Nat.lt_succ_self 2
      · exact Nat.lt_of_sub_eq_succ rfl
  | refused hp hdb => rw [hp]; exact Nat.zero_lt_succ 7
  | crowded hp hdb hb => rw [hp]; exact Nat.zero_lt_succ 7
  | launch hp hdb hb => rw [hp]; exact Nat.lt_succ_self 7
  | release hp => rw [hp]; exact Nat.lt_succ_self 6
  | gathered hp hover => rw [hp]; exact Nat.lt_succ_self 5
  | retired hp hover => rw [hp]; exact Nat.lt_succ_self 4
  | overflowed hp hdb ho => rw [hp]; exact Nat.zero_lt_succ 3
  | looked hp hdb ho => rw [hp]; exact Nat.lt_succ_self 3
  | unreported hp hf => rw [hp]; exact Nat.zero_lt_succ 2
  | unacknowledged hp hf => rw [hp]; exact Nat.zero_lt_succ 1
  | acknowledged hp hf => rw [hp]; exact Nat.lt_succ_self 1
  | unclosed hp hc => rw [hp]; exact Nat.zero_lt_succ 0
  | closed hp hc => rw [hp]; exact Nat.zero_lt_succ 0

/-- The events of a pool as events of a run at its database. -/
lemma run_ofPoolEvent (s : Setting σ) {r : Run σ} {db : Database σ} (hdb : r.database = some db)
    {events : List Pool.Event} (he : ∀ e ∈ events, (∃ i, e = .turn i) ∨ ∃ d, e = .tick d) :
    r.run s (events.map ofPoolEvent) = { r with pool := r.pool.run db events } ∧
      r.latency s (events.map ofPoolEvent) = r.pool.latency db events := by
  induction events generalizing r with
  | nil => exact ⟨rfl, rfl⟩
  | cons e events ih =>
      have hstep : r.step s (ofPoolEvent e) = { r with pool := r.pool.step db e } ∧
          r.latencyOf (ofPoolEvent e) = r.pool.latencyOf e := by
        rcases he e List.mem_cons_self with ⟨i, rfl⟩ | ⟨d, rfl⟩
        · refine ⟨?_, rfl⟩
          show r.movePool (.turn i) = _
          rw [movePool, hdb]
        · exact ⟨rfl, rfl⟩
      have hrest := ih (r := { r with pool := r.pool.step db e }) hdb fun e' he' =>
        he e' (List.mem_cons_of_mem e he')
      rw [List.map_cons, run_cons, latency, hstep.1, hstep.2, hrest.1, hrest.2]
      exact ⟨rfl, rfl⟩

/-- Once the shutdown signal is raised the links leave one after the other. -/
lemma exists_pressure_over (s : Setting σ) {r : Run σ} (h : r.Live) (hp : r.phase = .retiring) :
    ∃ events, (∀ e ∈ events, e ≠ .cancel) ∧ (r.run s events).phase = .retiring ∧
      (r.run s events).pressure.isOver = true ∧
      (r.run s events).pool.pending + r.latency s events = r.pool.pending := by
  -- by induction on the moves left to the links: each turn of the first link takes one
  induction hn : r.pressure.movesLeft using Nat.strongRecOn generalizing r with
  | ind n ih =>
      subst hn
      cases hover : r.pressure.isOver with
      | true => exact ⟨[], by simp, hp, hover, rfl⟩
      | false =>
          have hstepped := Pressure.movesLeft_step hover
          have hlive := h.stepped (stepped s r (.link 0))
          have hpressure : (r.step s (.link 0)).pressure = (r.pressure.step true 0).1 := by
            rw [← h.shutdown hp]
            rfl
          rw [← hpressure] at hstepped
          obtain ⟨events, hevents, hphase, hend, hlatency⟩ := ih _ hstepped hlive hp rfl
          refine ⟨.link 0 :: events, ?_, hphase, hend, ?_⟩
          · intro e he
            rcases List.mem_cons.mp he with rfl | he
            · intro hcancel
              cases hcancel
            · exact hevents e he
          · show _ + (0 + (r.step s (.link 0)).latency s events) = r.pool.pending
            rw [Nat.zero_add, run_cons, hlatency]
            rfl

/-- While a run waits for its workers they know whether to start. -/
lemma Live.started (h : r.Live) (hp : r.phase = .gathering) : r.pool.Started := by
  refine ⟨?_, h.sound⟩
  have hfired := h.fired hp
  rw [Signals.started]
  split
  · exact Option.some_ne_none _
  · rw [if_pos (by simp [Signals.ready, Signals.waitStart, Signals.Wait.of, hfired])]
    exact Option.some_ne_none _

/-- What a run waits for comes about. -/
lemma exists_waited (s : Setting σ) {r : Run σ} (h : r.Live) (hended : ∀ o, r.phase ≠ .ended o) :
    ∃ events, (∀ e ∈ events, e ≠ .cancel) ∧ (r.run s events).phase = r.phase ∧
      (r.run s events).pool.pending + r.latency s events = r.pool.pending ∧
      Advanced s (r.run s events) ((r.run s events).control s) := by
  -- only two phases wait: for the workers and for the links
  cases hp : r.phase with
  | gathering =>
      cases hdb : r.database with
      | none => exact absurd hdb (h.database (.inr (.inl hp)))
      | some db =>
          obtain ⟨events, hevents, hover, hlatency⟩ := Pool.exists_over db (h.started hp)
          obtain ⟨hrun, hlat⟩ := run_ofPoolEvent s hdb hevents
          refine ⟨events.map ofPoolEvent, ?_, ?_, ?_, ?_⟩
          · intro e he
            obtain ⟨e', he', rfl⟩ := List.mem_map.mp he
            intro hcancel
            rcases hevents e' he' with ⟨i, rfl⟩ | ⟨d, rfl⟩ <;> cases hcancel
          · rw [hrun]
            exact hp
          · rw [hrun, hlat, hlatency]
            show (r.pool.run db events).pending + _ = _
            rw [Pool.pending_of_isOver hover, Nat.zero_add]
          · rw [hrun]
            exact advanced s _ (by rw [Ready, hp]; exact hover)
  | retiring =>
      obtain ⟨events, hevents, hphase, hover, hlatency⟩ := exists_pressure_over s h hp
      exact ⟨events, hevents, hphase, hlatency,
        advanced s _ (by rw [Ready, hphase]; exact hover)⟩
  | checking =>
      have hdb := h.database (.inr (.inr (.inr hp)))
      exact ⟨[], by simp, hp, rfl, advanced s r (by rw [Ready, hp]; exact hdb)⟩
  | ended o => exact absurd hp (hended o)
  | _ =>
      exact ⟨[], by simp, hp, rfl, advanced s r (by rw [Ready, hp]; trivial)⟩

/-- **Every run can be brought to its end** from wherever it stands, without a cancellation; and no
longer latency comes about than there is. -/
theorem exists_ended (s : Setting σ) {r : Run σ} (h : r.Live) :
    ∃ events, (∀ e ∈ events, e ≠ .cancel) ∧ (∃ o, (r.run s events).outcome? = some o) ∧
      r.latency s events ≤ r.pool.pending := by
  -- by induction on the phases left
  induction hn : phasesLeft r.phase using Nat.strongRecOn generalizing r with
  | ind n ih =>
      subst hn
      by_cases hended : ∃ o, r.phase = .ended o
      · obtain ⟨o, hp⟩ := hended
        exact ⟨[], by simp, ⟨o, by rw [run_nil, outcome?, hp]⟩, Nat.zero_le _⟩
      obtain ⟨events, hevents, hphase, hlatency, hadvanced⟩ :=
        exists_waited s h (not_exists.mp hended)
      have hlive : (r.run s events).Live := run_induction (fun h hs => h.stepped hs) h events
      have hless := hadvanced.phasesLeft_lt
      rw [hphase] at hless
      obtain ⟨rest, hrest, hend, hlater⟩ := ih _ hless (hlive.advanced hadvanced) rfl
      rw [hlive.pending_advanced hadvanced] at hlater
      refine ⟨events ++ .control :: rest, ?_, ?_, ?_⟩
      · intro e he
        rcases List.mem_append.mp he with he | he
        · exact hevents e he
        · rcases List.mem_cons.mp he with rfl | he
          · intro hcancel
            cases hcancel
          · exact hrest e he
      · rw [run_append]
        exact hend
      · calc
          r.latency s (events ++ .control :: rest)
            = r.latency s events + (0 + ((r.run s events).control s).latency s rest) :=
              latency_append s r events (.control :: rest)
          _ ≤ r.latency s events + (r.run s events).pool.pending := by omega
          _ = r.pool.pending := by omega

end Live

/-- From wherever it stands a run comes to its end without a cancellation. -/
lemma exists_outcome (s : Setting σ) (store : σ) (events : List Event) :
    ∃ more, (∀ e ∈ more, e ≠ .cancel) ∧
      ∃ o, ((begin s store).run s (events ++ more)).outcome? = some o := by
  have hlive : ((begin s store).run s events).Live :=
    run_induction (fun h hs => h.stepped hs) (.begin s store) events
  obtain ⟨more, hmore, hended, -⟩ := exists_ended s hlive
  exact ⟨more, hmore, by rw [run_append]; exact hended⟩

end Run

end StoreSoak
