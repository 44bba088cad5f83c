import StoreSoak.Clock
import StoreSoak.Proofs.Run.Shutdown

/-!
Runs under a clock of their own come to an end.

A simulated run is given a number of steps to make. Every step takes something off what is left to
be done: a phase of the run, the deadline, a cancellation from outside, a move of a worker or a move
of a link. What is to be done at first is less than the number of steps, so that a run is never cut
short.

* `renew_head`, `renew_nil`: the worker at the head of a queue can go on at the slot of the queue,
  and when there is none every worker waits for good.
* `stepsLeft` is what is left to be done, and `stepsLeft_next` says that the next thing that happens
  takes something off.
* `complete_ended`: a simulated run is a run, and it ends.
-/

namespace StoreSoak

namespace Worker

/-- A pause that is ended is followed by the way out. -/
lemma movesLeft_interrupt {p : Plan} {g : Generator} {w : Worker} (h : Sound p g w) {k wake : ℕ}
    (hs : w.stage = .pausing k wake) : w.interrupt.1.movesLeft p < w.movesLeft p := by
  obtain ⟨hk, hpos, hsettled⟩ := h.of_pausing hs
  have hlast := hsettled.bounded
  rw [← hk, Plan.last] at hlast
  simp only [interrupt, hs, movesLeft]
  show 1 < 4 * (p.maxIterations - k) - 1
  omega

end Worker

namespace Pool

variable {σ : Type} {latency : Latency} {p : Pool σ} {q : Queue}

/-! ### The queue -/

/-- The earlier of a slot and that of a worker, if there are any. -/
def better (latency : Latency) (p : Pool σ) (best : Option Slot) (w : Worker) : Option Slot :=
  match p.slot? latency w, best with
  | none, _ => best
  | some s, none => some s
  | some s, some b => if s.isBefore b then some s else best

lemma firstSlot?_eq (latency : Latency) (p : Pool σ) :
    p.firstSlot? latency = p.workers.toList.foldl (p.better latency) none := by
  rw [firstSlot?, ← Array.foldl_toList]
  rfl

/-- The earlier of two slots is one of them, and there is none only where there is neither. -/
lemma better_eq (latency : Latency) (p : Pool σ) (best : Option Slot) (w : Worker) :
    (p.better latency best w = best ∨ p.better latency best w = p.slot? latency w) ∧
      (p.better latency best w = none → best = none ∧ p.slot? latency w = none) := by
  unfold better
  split
  · rename_i hslot
    exact ⟨.inl rfl, fun h => ⟨h, hslot⟩⟩
  · rename_i hslot
    exact ⟨.inr hslot.symm, nofun⟩
  · rename_i hslot
    split
    · exact ⟨.inr hslot.symm, nofun⟩
    · exact ⟨.inl rfl, nofun⟩

/-- The first slot of all is that of a worker, and there is none only where no worker has one. -/
lemma foldl_better (latency : Latency) (p : Pool σ) (ws : List Worker) (best : Option Slot) :
    (ws.foldl (p.better latency) best = none →
      best = none ∧ ∀ w ∈ ws, p.slot? latency w = none) ∧
    ∀ s, ws.foldl (p.better latency) best = some s →
      best = some s ∨ ∃ w ∈ ws, p.slot? latency w = some s := by
  induction ws generalizing best with
  | nil => exact ⟨fun h => ⟨h, fun w hw => absurd hw List.not_mem_nil⟩, fun s h => .inl h⟩
  | cons w ws ih =>
      obtain ⟨hnone, hsome⟩ := ih (p.better latency best w)
      obtain ⟨heither, hneither⟩ := better_eq latency p best w
      refine ⟨fun h => ?_, fun s h => ?_⟩
      · obtain ⟨hbetter, hrest⟩ := hnone h
        obtain ⟨hbest, hw⟩ := hneither hbetter
        exact ⟨hbest, List.forall_mem_cons.mpr ⟨hw, hrest⟩⟩
      · rcases hsome s h with hbetter | ⟨v, hv, hslot⟩
        · rcases heither with hsame | hsame <;> rw [hsame] at hbetter
          · exact .inl hbetter
          · exact .inr ⟨w, List.mem_cons_self, hbetter⟩
        · exact .inr ⟨v, List.mem_cons_of_mem w hv, hslot⟩

/-- A queue that was just made: the worker at its head goes on at its slot. -/
lemma gather_head (hindex : ∀ {i : ℕ} {w : Worker}, p.workers[i]? = some w → w.index = i) {i : ℕ}
    {rest : List ℕ} (h : (p.gather latency).workers = i :: rest) :
    ∃ w, p.workers[i]? = some w ∧ p.slot? latency w = some (p.gather latency).slot := by
  rw [gather] at h ⊢
  split at h
  · cases h
  · rename_i s hs
    have hmem : i ∈ (p.workers.toList.filter fun w => p.slot? latency w = some s).map
        Worker.index := by
      have hhead : i ∈ i :: rest := List.mem_cons_self
      rwa [← h] at hhead
    obtain ⟨w, hw, rfl⟩ := List.mem_map.mp hmem
    obtain ⟨hw, hslot⟩ := List.mem_filter.mp hw
    obtain ⟨j, hj⟩ := Array.getElem?_of_mem (Array.mem_toList_iff.mp hw)
    rw [hindex hj]
    exact ⟨w, hj, of_decide_eq_true hslot⟩

/-- A queue without workers is made only where nobody can go on. -/
lemma gather_nil (h : (p.gather latency).workers = []) {i : ℕ} {w : Worker}
    (hw : p.workers[i]? = some w) : p.slot? latency w = none := by
  have hmem : w ∈ p.workers.toList := by
    rw [← Array.getElem?_toList] at hw
    exact List.mem_of_getElem? hw
  obtain ⟨hnone, hsome⟩ := foldl_better latency p p.workers.toList none
  rw [gather, firstSlot?_eq] at h
  split at h
  · rename_i hfirst
    exact (hnone hfirst).2 w hmem
  · rename_i s hfirst
    rcases hsome s hfirst with hs | ⟨v, hv, hslot⟩
    · cases hs
    · -- the worker whose slot is the first one is in the queue
      rw [List.map_eq_nil_iff, List.filter_eq_nil_iff] at h
      exact absurd (decide_eq_true hslot) (h v hv)

/-- A renewed queue was just made, or it is the rest of the one before, and somebody in it is up. -/
lemma renew_cases (latency : Latency) (p : Pool σ) (q : Queue) :
    p.renew latency q = p.gather latency ∨
      ∃ i rest, p.isUp latency q.slot i = true ∧
        p.renew latency q = { q with workers := i :: rest } := by
  rw [renew]
  by_cases hsignals : q.signals = p.signals
  · rw [if_pos hsignals]
    have hhead := List.head?_dropWhile_not (fun i => !p.isUp latency q.slot i) q.workers
    cases hleft : q.workers.dropWhile fun i => !p.isUp latency q.slot i with
    | nil => exact .inl rfl
    | cons i rest =>
        rw [hleft] at hhead
        exact .inr ⟨i, rest, by simpa using hhead, rfl⟩
  · rw [if_neg hsignals]
    exact .inl rfl

/-- The worker at the head of a renewed queue goes on at its slot. -/
lemma renew_head (hindex : ∀ {i : ℕ} {w : Worker}, p.workers[i]? = some w → w.index = i) {i : ℕ}
    {rest : List ℕ} (h : (p.renew latency q).workers = i :: rest) :
    ∃ w, p.workers[i]? = some w ∧ p.slot? latency w = some (p.renew latency q).slot := by
  rcases renew_cases latency p q with hq | ⟨j, rest', hup, hq⟩ <;> rw [hq] at h ⊢
  · exact gather_head hindex h
  · cases h
    rw [isUp] at hup
    split at hup
    · cases hup
    · rename_i w hw
      exact ⟨w, hw, of_decide_eq_true hup⟩

/-- Where a renewed queue has no workers nobody can go on. -/
lemma renew_nil (h : (p.renew latency q).workers = []) {i : ℕ} {w : Worker}
    (hw : p.workers[i]? = some w) : p.slot? latency w = none := by
  rcases renew_cases latency p q with hq | ⟨j, rest', hup, hq⟩ <;> rw [hq] at h
  · exact gather_nil h hw
  · cases h

/-- A worker with a slot can go on at its moment. -/
lemma due_of_slot? {w : Worker} {s : Slot} (h : p.slot? latency w = some s) :
    p.due latency w = some s.time := by
  rw [slot?] at h
  split at h
  · cases h
  · rename_i t ht
    rw [ht, ← Option.some.inj h]

/-- A worker of a pool under way that can never go on is gone. -/
lemma Started.isGone (h : Started p) {w : Worker} (hslot : p.slot? latency w = none) :
    w.isGone = true := by
  have hdue : p.due latency w = none := by
    rw [slot?] at hslot
    split at hslot
    · assumption
    · cases hslot
  rw [due] at hdue
  split at hdue
  · rename_i hs
    rw [if_pos (Option.isSome_iff_ne_none.mpr h.started)] at hdue
    cases hdue
  · cases hdue
  · cases hdue
  · cases hdue
  · split at hdue <;> cases hdue
  · cases hdue
  · rename_i e hs
    rw [Worker.isGone, hs]

/-- A worker goes on by its turn, or its pause is ended. -/
lemma eventOf_cases (p : Pool σ) (w : Worker) :
    (∃ i, p.eventOf w = .turn i) ∨ ∃ i, p.eventOf w = .interrupt i := by
  rw [eventOf]
  split
  · split
    · exact .inr ⟨_, rfl⟩
    · exact .inl ⟨_, rfl⟩
  · exact .inl ⟨_, rfl⟩

/-- **A worker that is up makes a move** at its moment. -/
lemma Started.move (db : Database σ) (h : Started p)
    (hindex : ∀ {i : ℕ} {w : Worker}, p.workers[i]? = some w → w.index = i) {i : ℕ} {w : Worker}
    (hw : p.workers[i]? = some w) {s : Slot} (hslot : p.slot? latency w = some s) :
    ((p.advance s.time).step db (p.eventOf w)).movesLeft < p.movesLeft := by
  have hadvanced : Started (p.advance s.time) := ⟨h.started, h.sound⟩
  have hdue := due_of_slot? hslot
  have hturn (hgone : ∀ e, w.stage ≠ .gone e)
      (hwake : ∀ k wake, w.stage = .pausing k wake → wake ≤ (p.advance s.time).now) :
      ((p.advance s.time).step db (.turn i)).movesLeft < p.movesLeft :=
    (hadvanced.turn db (w := w) hw hgone hwake).1
  rw [due] at hdue
  rw [eventOf, hindex hw]
  cases hs : w.stage with
  | pausing k wake =>
      rw [hs] at hdue
      dsimp only at hdue ⊢
      split
      · -- the pause is ended by the shutdown signal
        rename_i hraised
        rw [Bool.and_eq_true] at hraised
        obtain ⟨g, hsound⟩ := h.sound hw
        have hstep : (p.advance s.time).step db (.interrupt i) =
            (p.advance s.time).put i w.interrupt := by
          have hw' : (p.advance s.time).workers[i]? = some w := hw
          rw [step, hw']
          exact if_pos hraised.2
        have hmoves := sum_replace hw w.interrupt.1 (Worker.movesLeft p.plan)
        have hless := Worker.movesLeft_interrupt hsound hs
        rw [hstep, movesLeft, movesLeft, total, total, put_workers]
        show ((p.workers.setIfInBounds i w.interrupt.1).toList.map
          (Worker.movesLeft p.plan)).sum < _
        omega
      · rename_i hraised
        refine hturn (fun e he => by rw [hs] at he; cases he) fun k' wake' hs' => ?_
        rw [hs] at hs'
        cases hs'
        rw [Bool.and_eq_true, not_and, decide_eq_true_eq] at hraised
        show wake ≤ max p.now s.time
        split at hdue
        · rename_i hshutdown
          have hlate : ¬ p.now < wake := fun hlt => hraised hlt hshutdown
          omega
        · rw [← Option.some.inj hdue]
          omega
  | gone e =>
      rw [hs] at hdue
      cases hdue
  | _ =>
      exact hturn (fun e he => by rw [hs] at he; cases he)
        fun k' wake' hs' => by rw [hs] at hs'; cases hs'

end Pool

namespace Run

variable {σ : Type} {s : Setting σ} {r r' : Run σ} {e : Event} {latency : Latency}
  {cancelAt : Option ℕ}

/-! ### What is left to be done -/

/-- A run on its way: it can go on, its workers are those of its plan, and it has no deadline but
the one that it was given. -/
structure OnItsWay (s : Setting σ) (r : Run σ) : Prop where
  live : r.Live
  launched : r.pool.Launched s.config.plan s.entropy
  alarm : r.alarm ≠ none → s.config.deadline ≠ none

/-- A change that spares the workers. -/
lemma launched_of_eq {p p' : Pool σ} {plan : Plan} {entropy : ℕ → Generator}
    (h : p.Launched plan entropy) (hplan : p'.plan = p.plan) (hworkers : p'.workers = p.workers) :
    p'.Launched plan entropy := by
  refine ⟨hplan.trans h.plan_eq, ?_, ?_⟩
  · rw [hworkers]
    exact h.index
  · rw [hworkers]
    exact h.sound

lemma OnItsWay.begin (s : Setting σ) (store : σ) : OnItsWay s (begin s store) := by
  have hnone {i : ℕ} {w : Worker} : (Run.begin s store).pool.workers[i]? ≠ some w := by
    intro hw
    cases hw
  exact ⟨.begin s store, ⟨rfl, fun hw => absurd hw hnone, fun hw => absurd hw hnone⟩,
    fun h => absurd rfl h⟩

lemma looked_alarm (s : Setting σ) (r : Run σ) (db : Database σ) :
    (r.looked s db).alarm = r.alarm := by
  rw [looked]
  dsimp only
  split <;> rfl

lemma putText_alarm (r : Run σ) (report : Report) (text : String) :
    (r.putText report text).alarm = r.alarm := by
  rw [putText]
  split <;> rfl

/-- The moves of a run itself but the launch leave the deadline, or end it, and leave the chains
alone. -/
lemma Advanced.alarm (hs : Advanced s r r') :
    r.phase = .selecting ∧ (∃ db, r' = (r.did (.selected s.config.database)).launch s db) ∨
      (r'.alarm = r.alarm ∨ r'.alarm = none) ∧ r'.pressure = r.pressure := by
  cases hs with
  | launch hp hdb hb => exact .inl ⟨hp, _, rfl⟩
  | gathered hp hover => exact .inr ⟨.inr rfl, rfl⟩
  | overflowed hp hdb ho => exact .inr ⟨.inl (looked_alarm s r _), looked_pressure s r _⟩
  | looked hp hdb ho => exact .inr ⟨.inl (looked_alarm s r _), looked_pressure s r _⟩
  | reported hp ht => exact .inr ⟨.inl (putText_alarm r _ _), putText_pressure r _ _⟩
  | _ => exact .inr ⟨.inl rfl, rfl⟩

/-- Every event keeps a run on its way. -/
lemma OnItsWay.stepped (h : OnItsWay s r) (hs : Stepped s r e r') : OnItsWay s r' := by
  refine ⟨h.live.stepped hs, ?_, ?_⟩
  · rcases hs.pool with ⟨db, d, hpool⟩ | hspared | ⟨-, db, rfl⟩
    · rw [hpool]
      exact h.launched.stepped (Pool.stepped db r.pool d)
    · exact launched_of_eq h.launched hspared.plan hspared.workers
    · exact launched_of_eq (.launch s.config.plan s.config.failurePolicy s.config.workers s.entropy
        r.pool.store) rfl rfl
  · cases hs with
    | control hs =>
        rcases hs.alarm with ⟨-, db, rfl⟩ | ⟨hsame | hnone, -⟩
        · intro hsome hdeadline
          refine hsome ?_
          show s.config.deadline.map _ = none
          rw [hdeadline, Option.map_none]
        · rw [hsame]
          exact h.alarm
        · exact fun hsome => absurd hnone hsome
    | ring ha hlimit hdue => exact fun hsome => absurd rfl hsome
    | _ => exact h.alarm

/-- Whether there is a deadline to come. -/
def alarmsLeft (r : Run σ) : ℕ :=
  if r.alarm.isSome then 1 else 0

/-- Whether the shutdown can still be asked for. -/
def cancelsLeft (r : Run σ) : ℕ :=
  if r.pool.signals.shutdown then 0 else 1

/-- What is left to be done by a run that has its workers: phases, the deadline, a cancellation from
outside, and the moves of workers and links. -/
def stepsLeft (r : Run σ) : ℕ :=
  phasesLeft r.phase + r.alarmsLeft + r.cancelsLeft + r.pool.movesLeft + r.pressure.movesLeft

lemma alarmsLeft_le (h : r'.alarm = r.alarm ∨ r'.alarm = none) :
    r'.alarmsLeft ≤ r.alarmsLeft := by
  rcases h with h | h
  · rw [alarmsLeft, h, alarmsLeft]
  · rw [alarmsLeft, h]
    exact Nat.zero_le _

lemma cancelsLeft_le (h : Pool.Raised r.pool.signals r'.pool.signals) :
    r'.cancelsLeft ≤ r.cancelsLeft := by
  rw [cancelsLeft, cancelsLeft]
  cases hshutdown : r.pool.signals.shutdown with
  | true =>
      rw [h.shutdown hshutdown]
  | false =>
      show _ ≤ 1
      split <;> omega

lemma movesLeft_of_eq {p p' : Pool σ} (hplan : p'.plan = p.plan)
    (hworkers : p'.workers = p.workers) : p'.movesLeft = p.movesLeft := by
  rw [Pool.movesLeft, Pool.movesLeft, Pool.total, Pool.total, hplan, hworkers]

/-- A move of the run itself takes off a phase. -/
lemma Advanced.stepsLeft_lt (hs : Advanced s r r') (hp : r.phase ≠ .selecting) :
    r'.stepsLeft < r.stepsLeft := by
  have hphase := hs.phasesLeft_lt
  have hspared := hs.spared.resolve_right fun h => hp h.1
  obtain ⟨halarm, hpressure⟩ := hs.alarm.resolve_left fun h => hp h.1
  have halarms := alarmsLeft_le halarm
  have hcancels := cancelsLeft_le hspared.signals
  rw [stepsLeft, stepsLeft, movesLeft_of_eq hspared.plan hspared.workers, hpressure]
  omega

/-! ### One step of the clock -/

/-- The run at a moment that has not passed yet. -/
def atTime (r : Run σ) (time : ℕ) : Run σ :=
  { r with pool := r.pool.advance time }

/-- The clock goes on by an event. -/
lemma atTime_eq (s : Setting σ) (r : Run σ) (time : ℕ) :
    r.atTime time = r.step s (.tick (time - r.pool.now)) := by
  have hnow : max r.pool.now time = r.pool.now + (time - r.pool.now) := by omega
  show { r with pool := { r.pool with now := max r.pool.now time } } = _
  rw [hnow]
  rfl

/-- A run that has nothing to wait for makes its next move. -/
lemma stepsLeft_control (hready : r.Ready) (hp : r.phase ≠ .selecting) (time : ℕ) :
    ((r.atTime time).step s .control).stepsLeft < r.stepsLeft :=
  (advanced s (r.atTime time) hready).stepsLeft_lt (r := r.atTime time) hp

lemma movePool_eq {db : Database σ} (hdb : r.database = some db) (e : Pool.Event) :
    r.movePool e = { r with pool := r.pool.step db e } := by
  rw [movePool, hdb]

/-- A worker makes a move. -/
lemma stepsLeft_worker (h : OnItsWay s r) (hp : r.phase = .gathering) {i : ℕ} {w : Worker}
    (hw : r.pool.workers[i]? = some w) {slot : Pool.Slot}
    (hslot : r.pool.slot? latency w = some slot) :
    ((r.atTime slot.time).step s (ofPoolEvent (r.pool.eventOf w))).stepsLeft < r.stepsLeft := by
  obtain ⟨db, hdb⟩ := Option.ne_none_iff_exists'.mp (h.live.database (.inr (.inl hp)))
  have hmoves := (h.live.started hp).move db h.launched.index hw hslot
  have hevent := Pool.eventOf_cases r.pool w
  have hstep : (r.atTime slot.time).step s (ofPoolEvent (r.pool.eventOf w)) =
      { r with pool := (r.pool.advance slot.time).step db (r.pool.eventOf w) } := by
    rcases hevent with ⟨j, he⟩ | ⟨j, he⟩ <;> rw [he]
    · exact movePool_eq (r := r.atTime slot.time) hdb (.turn j)
    · exact movePool_eq (r := r.atTime slot.time) hdb (.interrupt j)
  have hcancels : Run.cancelsLeft { r with
      pool := (r.pool.advance slot.time).step db (r.pool.eventOf w) } ≤ r.cancelsLeft := by
    refine cancelsLeft_le (r := r.atTime slot.time)
      (.stepped (Pool.stepped db (r.pool.advance slot.time) _) ?_)
    rcases hevent with ⟨j, he⟩ | ⟨j, he⟩ <;> rw [he] <;> exact nofun
  rw [hstep, stepsLeft, stepsLeft]
  show phasesLeft r.phase + r.alarmsLeft + _ + _ + r.pressure.movesLeft < _
  dsimp only
  omega

/-- The earlier of two appointments is one of them. -/
lemma earlier_cases {a b : Option Appointment} {c : Appointment} (h : earlier a b = some c) :
    a = some c ∨ b = some c := by
  unfold earlier at h
  split at h
  · exact .inr h
  · exact .inl h
  · split at h
    · exact .inl h
    · exact .inr h

/-- The deadline is noticed, or the shutdown is asked for. -/
lemma stepsLeft_outside (h : OnItsWay s r) {a : Appointment} (ha : r.outside cancelAt = some a) :
    ((r.atTime a.time).step s a.event).stepsLeft < r.stepsLeft := by
  -- either the alarm rings, and rings once, or the operator asks for an end, once too
  rcases earlier_cases ha with ha | ha
  · rw [alarmAt, Option.map_eq_some_iff] at ha
    obtain ⟨due, halarm, rfl⟩ := ha
    obtain ⟨limit, hlimit⟩ := Option.ne_none_iff_exists'.mp
      (h.alarm (by rw [halarm]; exact Option.some_ne_none due))
    have hstep : (r.atTime due).step s .alarm = { r.atTime due with
        alarm := none
        pool := ((r.atTime due).pool.note (.deadlineReached limit)).requestShutdown } := by
      have halarm' : (r.atTime due).alarm = some due := halarm
      have hdue : due ≤ (r.atTime due).pool.now := Nat.le_max_right _ _
      show (r.atTime due).ring s = _
      rw [ring, halarm', hlimit]
      exact if_pos hdue
    have halarms : r.alarmsLeft = 1 := by rw [alarmsLeft, halarm]; rfl
    have hcancels : ((r.atTime due).step s .alarm).cancelsLeft ≤ r.cancelsLeft := by
      rw [hstep]
      exact cancelsLeft_le (r := r.atTime due)
        (.requestShutdown ((r.atTime due).pool.note (.deadlineReached limit)))
    have hmoves : ((r.atTime due).step s .alarm).pool.movesLeft = r.pool.movesLeft := by
      rw [hstep]
      exact movesLeft_of_eq (Pool.requestShutdown_plan _) (Pool.requestShutdown_workers _)
    dsimp only
    rw [stepsLeft, stepsLeft, hmoves, halarms]
    rw [hstep] at hcancels ⊢
    show phasesLeft r.phase + 0 + _ + _ + r.pressure.movesLeft < _
    omega
  · split at ha
    · cases ha
    · rename_i hshutdown
      rw [Option.map_eq_some_iff] at ha
      obtain ⟨time, -, rfl⟩ := ha
      have hcancels : r.cancelsLeft = 1 := by rw [cancelsLeft, if_neg hshutdown]
      have hcancels' : ((r.atTime time).step s .cancel).cancelsLeft = 0 := by
        rw [cancelsLeft]
        exact if_pos (Pool.requestShutdown_shutdown (r.pool.advance time) h.live.lifecycle)
      have hmoves : ((r.atTime time).step s .cancel).pool.movesLeft = r.pool.movesLeft :=
        movesLeft_of_eq (Pool.requestShutdown_plan _) (Pool.requestShutdown_workers _)
      dsimp only
      rw [stepsLeft, stepsLeft, hmoves, hcancels, hcancels']
      show phasesLeft r.phase + r.alarmsLeft + 0 + _ + r.pressure.movesLeft < _
      omega

/-- A link goes on once the chains are waited for. -/
lemma stepsLeft_link (h : OnItsWay s r) (hp : r.phase = .retiring)
    (hover : r.pressure.isOver = false) (time : ℕ) :
    ((r.atTime time).step s (.link 0)).stepsLeft < r.stepsLeft := by
  have hless := Pressure.movesLeft_step hover
  have hpressure : ((r.atTime time).step s (.link 0)).pressure = (r.pressure.step true 0).1 := by
    rw [← h.live.shutdown hp]
    rfl
  rw [stepsLeft, stepsLeft, hpressure]
  show phasesLeft r.phase + r.alarmsLeft + r.cancelsLeft + r.pool.movesLeft + _ < _
  omega

/-- What happens next while the workers are waited for: the run goes on when all are gone; else it
is the turn of a worker at its slot, or something from outside comes no later. -/
lemma next_gathering (h : OnItsWay s r) (hp : r.phase = .gathering) (latency : Latency)
    (cancelAt : Option ℕ) (q : Pool.Queue) :
    (r.pool.isOver = true ∧ r.next cancelAt (r.renew latency q) = ⟨r.pool.now, .control⟩) ∨
      ∃ (i : ℕ) (w : Worker), r.pool.workers[i]? = some w ∧
        r.pool.slot? latency w = some (r.renew latency q).slot ∧
        ((r.next cancelAt (r.renew latency q) =
              ⟨(r.renew latency q).slot.time, ofPoolEvent (r.pool.eventOf w)⟩ ∧
            ∀ a, r.outside cancelAt = some a → (r.renew latency q).slot.time < a.time) ∨
          ∃ a, r.outside cancelAt = some a ∧ a.time ≤ (r.renew latency q).slot.time ∧
            r.next cancelAt (r.renew latency q) = a) := by
  have hrenew : r.renew latency q = r.pool.renew latency q := by rw [renew, hp]
  rw [hrenew]
  cases hqueue : (r.pool.renew latency q).workers with
  | nil =>
      -- nobody can go on: all workers are gone
      have hover : r.pool.isOver = true := by
        refine Array.all_eq_true'.mpr fun w hmem => ?_
        obtain ⟨i, hi⟩ := Array.getElem?_of_mem hmem
        exact (h.live.started hp).isGone (Pool.renew_nil hqueue hi)
      have hnone : r.workerNext (r.pool.renew latency q) = none := by
        rw [workerNext, Pool.ready?, hqueue]
        rfl
      exact .inl ⟨hover, by simp only [next, hp, hnone, hover, if_true]⟩
  | cons i rest =>
      obtain ⟨w, hw, hslot⟩ := Pool.renew_head h.launched.index hqueue
      refine .inr ⟨i, w, hw, hslot, ?_⟩
      have hworker : r.workerNext (r.pool.renew latency q) =
          some ⟨(r.pool.renew latency q).slot.time, ofPoolEvent (r.pool.eventOf w)⟩ := by
        rw [workerNext, Pool.ready?, hqueue]
        simp only [hw, Option.map_some]
      simp only [next, hp, hworker]
      cases r.outside cancelAt with
      | none => exact .inl ⟨rfl, fun a ha => by cases ha⟩
      | some a =>
          rw [earlier]
          split
          · rename_i hle
            exact .inr ⟨a, rfl, hle, rfl⟩
          · rename_i hlt
            refine .inl ⟨rfl, fun b hb => ?_⟩
            rw [← Option.some.inj hb]
            exact Nat.lt_of_not_le hlt

/-- **The next thing that happens takes something off** what is left to be done. -/
lemma stepsLeft_next (h : OnItsWay s r) (latency : Latency) (hended : ∀ o, r.phase ≠ .ended o)
    (hselecting : r.phase ≠ .selecting) (cancelAt : Option ℕ) (q : Pool.Queue) :
    ((r.atTime (r.next cancelAt (r.renew latency q)).time).step s
      (r.next cancelAt (r.renew latency q)).event).stepsLeft < r.stepsLeft := by
  -- in each phase the clock hands on an event that is due there
  cases hp : r.phase with
  | selecting => exact absurd hp hselecting
  | gathering =>
      rcases next_gathering h hp latency cancelAt q with
        ⟨hover, hnext⟩ | ⟨i, w, hw, hslot, ⟨hnext, -⟩ | ⟨a, ha, -, hnext⟩⟩ <;> rw [hnext]
      · exact stepsLeft_control (by rw [Ready, hp]; exact hover) hselecting _
      · exact stepsLeft_worker h hp hw hslot
      · exact stepsLeft_outside h ha
  | retiring =>
      cases hover : r.pressure.isOver with
      | true =>
          have hnext : r.next cancelAt (r.renew latency q) = ⟨r.pool.now, .control⟩ := by
            simp only [next, hp, hover, if_true]
          rw [hnext]
          exact stepsLeft_control (by rw [Ready, hp]; exact hover) hselecting _
      | false =>
          have hnext : r.next cancelAt (r.renew latency q) = ⟨r.pool.now, .link 0⟩ := by
            simp [next, hp, hover]
          rw [hnext]
          exact stepsLeft_link h hp hover _
  | checking =>
      have hnext : r.next cancelAt (r.renew latency q) = ⟨r.pool.now, .control⟩ := by
        simp only [next, hp]
      rw [hnext]
      exact stepsLeft_control
        (by rw [Ready, hp]; exact h.live.database (.inr (.inr (.inr hp)))) hselecting _
  | ended o => exact absurd hp (hended o)
  | _ =>
      have hnext : r.next cancelAt (r.renew latency q) = ⟨r.pool.now, .control⟩ := by
        simp only [next, hp]
      rw [hnext]
      exact stepsLeft_control (by rw [Ready, hp]; trivial) hselecting _

/-! ### The end -/

/-- So much is left to be done by a run that has just been launched. -/
lemma stepsLeft_launch (s : Setting σ) (r : Run σ) (db : Database σ) :
    (r.launch s db).stepsLeft ≤
      9 + s.config.workers * (4 * s.config.maxIterations + 3) + 3 * chainCount s := by
  -- each worker has four moves for an iteration and three more, each link has three
  have hmoves : (r.launch s db).pool.movesLeft =
      s.config.workers * (4 * s.config.maxIterations + 3) := by
    show (((Array.range s.config.workers).map (Worker.launch s.config.plan s.entropy)).toList.map
      (Worker.movesLeft s.config.plan)).sum = _
    rw [Array.toList_map, List.map_map, Array.toList_range]
    show ((List.range s.config.workers).map fun _ => 4 * s.config.maxIterations + 3).sum = _
    rw [List.map_const', List.sum_replicate, List.length_range, smul_eq_mul]
  have hlinks : (r.launch s db).pressure.movesLeft = 3 * chainCount s := by
    show (((Array.range (chainCount s)).map fun c => (⟨c, .queued⟩ : Link)).toList.map _).sum = _
    rw [Array.toList_map, List.map_map, Array.toList_range]
    show ((List.range (chainCount s)).map fun _ => 3).sum = _
    rw [List.map_const', List.sum_replicate, List.length_range, smul_eq_mul, Nat.mul_comm]
  have halarms : (r.launch s db).alarmsLeft ≤ 1 := by
    rw [alarmsLeft]
    split <;> omega
  have hcancels : (r.launch s db).cancelsLeft ≤ 1 := by
    rw [cancelsLeft]
    split <;> omega
  rw [stepsLeft, hmoves, hlinks]
  show 7 + _ + _ + _ + _ ≤ _
  omega

lemma phase_ne_selecting (hs : Stepped s r e r') (hp : r.phase ≠ .selecting) :
    r'.phase ≠ .selecting := by
  cases hs with
  | control hs =>
      intro hp'
      have hless := hs.phasesLeft_lt
      have hle : phasesLeft r.phase ≤ 8 := by
        cases r.phase <;> simp [phasesLeft]
      rw [hp'] at hless
      exact absurd hle (Nat.not_le.mpr hless)
  | _ => exact hp

lemma simulate_of_ended (s : Setting σ) (latency : Latency) (cancelAt : Option ℕ) (n : ℕ)
    (q : Pool.Queue) {o : Outcome} (hp : r.phase = .ended o) :
    simulate s latency cancelAt n q r = r := by
  cases n with
  | zero => rfl
  | succ n => rw [simulate, hp]

lemma simulate_succ (s : Setting σ) (latency : Latency) (cancelAt : Option ℕ) (n : ℕ)
    (q : Pool.Queue) (hended : ∀ o, r.phase ≠ .ended o) :
    simulate s latency cancelAt (n + 1) q r = simulate s latency cancelAt n (r.renew latency q)
      ((r.atTime (r.next cancelAt (r.renew latency q)).time).step s
        (r.next cancelAt (r.renew latency q)).event) := by
  rw [simulate]
  split
  · rename_i o hp
    exact absurd hp (hended o)
  · rfl

/-- A simulated run is a run. -/
lemma simulate_eq_run (s : Setting σ) (latency : Latency) (cancelAt : Option ℕ) (n : ℕ)
    (q : Pool.Queue) (r : Run σ) :
    ∃ events, simulate s latency cancelAt n q r = r.run s events := by
  induction n generalizing q r with
  | zero => exact ⟨[], rfl⟩
  | succ n ih =>
      by_cases hended : ∃ o, r.phase = .ended o
      · obtain ⟨o, hp⟩ := hended
        exact ⟨[], simulate_of_ended s latency cancelAt (n + 1) q hp⟩
      · rw [simulate_succ s latency cancelAt n q (not_exists.mp hended), atTime_eq s]
        obtain ⟨events, hevents⟩ := ih (r.renew latency q) _
        exact ⟨_ :: _ :: events, hevents⟩

/-- Enough steps bring a run with workers to its end. -/
lemma simulate_ended (h : OnItsWay s r) (hselecting : r.phase ≠ .selecting)
    (cancelAt : Option ℕ) {n : ℕ} (hn : r.stepsLeft ≤ n) (q : Pool.Queue) :
    ∃ o, (simulate s latency cancelAt n q r).phase = .ended o := by
  -- a step of the clock takes off a step that is left to be done
  induction n generalizing q r with
  | zero =>
      have hphases : phasesLeft r.phase = 0 := by
        rw [stepsLeft] at hn
        omega
      cases hp : r.phase with
      | ended o => exact ⟨o, hp⟩
      | _ =>
          rw [hp] at hphases
          cases hphases
  | succ n ih =>
      by_cases hended : ∃ o, r.phase = .ended o
      · obtain ⟨o, hp⟩ := hended
        exact ⟨o, by rw [simulate_of_ended s latency cancelAt (n + 1) q hp, hp]⟩
      · have hless := stepsLeft_next h latency (not_exists.mp hended) hselecting cancelAt q
        rw [simulate_succ s latency cancelAt n q (not_exists.mp hended)]
        generalize r.next cancelAt (r.renew latency q) = a at hless
        have htick := stepped s r (.tick (a.time - r.pool.now))
        rw [← atTime_eq] at htick
        have hevent := stepped s (r.atTime a.time) a.event
        refine ih ((h.stepped htick).stepped hevent)
          (phase_ne_selecting hevent (phase_ne_selecting htick hselecting)) (by omega) _

/-- **A simulated run is a run, and it comes to its end**, whatever time the calls take and whenever
it is cancelled. -/
theorem complete_ended (s : Setting σ) (latency : Latency) (cancelAt : Option ℕ) (store : σ) :
    ∃ events, complete s latency cancelAt (begin s store) = (begin s store).run s events ∧
      ∃ o, ((begin s store).run s events).outcome? = some o := by
  obtain ⟨events, hevents⟩ :=
    simulate_eq_run s latency cancelAt (fuel s) Pool.Queue.empty (begin s store)
  refine ⟨events, hevents, ?_⟩
  rw [← hevents]
  have hended : ∃ o, (simulate s latency cancelAt (fuel s) Pool.Queue.empty
      (begin s store)).phase = .ended o := by
    -- the selection is the first step; the fuel for the others is counted from the launch on
    have hfuel : fuel s = (s.config.workers * (4 * s.config.maxIterations + 8) +
        3 * chainCount s + 15) + 1 := rfl
    rw [hfuel, simulate_succ s latency cancelAt _ _ (by intro o ho; cases ho)]
    show ∃ o, (simulate s latency cancelAt _ _ ((begin s store).select s)).phase = .ended o
    have hway := (OnItsWay.begin s store).stepped (stepped s (begin s store) .control)
    have hselect : (begin s store).step s .control = (begin s store).select s := rfl
    rw [hselect, select] at hway
    rw [select]
    split
    · exact ⟨_, congrArg phase (simulate_of_ended s latency cancelAt _ _ rfl)⟩
    · rename_i db hdb
      rw [hdb] at hway
      split
      · exact ⟨_, congrArg phase (simulate_of_ended s latency cancelAt _ _ rfl)⟩
      · rename_i hroom
        rw [hroom] at hway
        have hleft := stepsLeft_launch s ((begin s store).did (.selected s.config.database)) db
        refine simulate_ended (r := ((begin s store).did (.selected s.config.database)).launch s db)
          hway (by simp [launch]) cancelAt ?_ _
        have hmul : s.config.workers * (4 * s.config.maxIterations + 3) ≤
            s.config.workers * (4 * s.config.maxIterations + 8) :=
          Nat.mul_le_mul_left _ (by omega)
        omega
  obtain ⟨o, ho⟩ := hended
  exact ⟨o, by rw [outcome?, ho]⟩

end Run

end StoreSoak
