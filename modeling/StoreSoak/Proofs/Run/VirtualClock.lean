import StoreSoak.Proofs.Run.Clock
import StoreSoak.Proofs.Run.Unopposed

/-!
What it is for a run to go by a clock of its own.

Under such a clock computing takes no time: as long as somebody can go on time stands still, and
when everything waits it goes on to the first moment at which something is due, and no further. In
which order things happen that are due at once is left open.

* `Rests`: a run in which everything waits, at least for so long. `OnClock`: events by which time
  goes by only while the run rests.
* `Pool.Idle`: nobody in a pool can go on before some moment. `renew_idle` says that nobody can go
  on before the slot of a queue that is up to date.
* `InTime`: the queue of a simulated run is up to date where it is needed.
* `complete_onClock`: a simulated run without chains goes by its clock, and comes to its end.
-/

namespace StoreSoak

namespace Pool

variable {σ : Type} {latency : Latency} {p p' : Pool σ} {q : Queue} {w : Worker} {t : ℕ}

/-- Nobody can go on before the given moment. -/
def Idle (latency : Latency) (p : Pool σ) (moment : ℕ) : Prop :=
  ∀ (i : ℕ) (w : Worker) (t : ℕ), p.workers[i]? = some w → p.due latency w = some t → moment ≤ t

/-- Nobody can go on in the past. -/
lemma now_le_due (h : p.due latency w = some t) : p.now ≤ t := by
  unfold due at h
  split at h
  · split at h
    · exact (Option.some.inj h).le
    · cases h
  · exact (Option.some.inj h).le
  · exact (Option.some.inj h).le
  · rw [← Option.some.inj h]
    exact Nat.le_max_left _ _
  · split at h
    · exact (Option.some.inj h).le
    · rw [← Option.some.inj h]
      exact Nat.le_max_left _ _
  · exact (Option.some.inj h).le
  · cases h

/-- As time goes on a worker that has not moved can go on no earlier than before. -/
lemma exists_due_le (hsignals : p'.signals = p.signals) (hnow : p.now ≤ p'.now)
    (h : p'.due latency w = some t) : ∃ t₀ ≤ t, p.due latency w = some t₀ := by
  -- a time that is due is a maximum with the present, which only grows
  unfold due at h ⊢
  rw [hsignals] at h
  split at h
  · split at h
    · rename_i hstarted
      rw [if_pos hstarted]
      exact ⟨p.now, hnow.trans (Option.some.inj h).le, rfl⟩
    · cases h
  · exact ⟨p.now, hnow.trans (Option.some.inj h).le, rfl⟩
  · exact ⟨p.now, hnow.trans (Option.some.inj h).le, rfl⟩
  · rename_i k f since hs
    have hle := Option.some.inj h
    exact ⟨max p.now (since + latency ⟨w.index, k⟩), by omega, rfl⟩
  · rename_i k wake hs
    split at h
    · rename_i hshutdown
      rw [if_pos hshutdown]
      exact ⟨p.now, hnow.trans (Option.some.inj h).le, rfl⟩
    · rename_i hshutdown
      rw [if_neg hshutdown]
      have hle := Option.some.inj h
      exact ⟨max p.now wake, by omega, rfl⟩
  · exact ⟨p.now, hnow.trans (Option.some.inj h).le, rfl⟩
  · cases h

lemma Idle.of_le_now {moment : ℕ} (h : moment ≤ p.now) : p.Idle latency moment :=
  fun _ _ _ _ ht => h.trans (now_le_due ht)

/-- As time goes on nobody can go on earlier than before. -/
lemma Idle.later {moment : ℕ} (h : p.Idle latency moment) (hsignals : p'.signals = p.signals)
    (hworkers : p'.workers = p.workers) (hnow : p.now ≤ p'.now) : p'.Idle latency moment := by
  intro i w t hw ht
  rw [hworkers] at hw
  obtain ⟨t₀, hle, ht₀⟩ := exists_due_le hsignals hnow ht
  exact (h i w t₀ hw ht₀).trans hle

/-! ### The first slot -/

/-- The earlier of two slots is no later than either of them. -/
lemma better_le {best : Option Slot} {b : Slot} (h : p.better latency best w = some b) :
    (∀ a, best = some a → b.time ≤ a.time) ∧
      ∀ a, p.slot? latency w = some a → b.time ≤ a.time := by
  unfold better at h
  split at h
  · rename_i hslot
    refine ⟨fun a ha => ?_, fun a ha => ?_⟩
    · rw [ha] at h
      exact (congrArg Slot.time (Option.some.inj h)).ge
    · rw [hslot] at ha
      cases ha
  · rename_i u hslot
    rw [hslot]
    cases h
    exact ⟨fun a ha => absurd ha (Option.some_ne_none a).symm,
      fun a ha => Option.some.inj ha ▸ le_rfl⟩
  · rename_i u v hslot
    -- the times come first in the order of the slots
    have horder : (u.isBefore v = true → u.time ≤ v.time) ∧
        (u.isBefore v = false → v.time ≤ u.time) := by
      simp only [Slot.isBefore, Bool.or_eq_true, Bool.and_eq_true, decide_eq_true_eq,
        Bool.or_eq_false_iff, decide_eq_false_iff_not]
      omega
    rw [hslot]
    split at h
    · rename_i hbefore
      cases h
      exact ⟨fun a ha => Option.some.inj ha ▸ horder.1 hbefore,
        fun a ha => Option.some.inj ha ▸ le_rfl⟩
    · rename_i hbefore
      cases h
      exact ⟨fun a ha => Option.some.inj ha ▸ le_rfl,
        fun a ha => Option.some.inj ha ▸ horder.2 (Bool.eq_false_of_not_eq_true hbefore)⟩

/-- The first slot of all is no later than any. -/
lemma foldl_better_le {ws : List Worker} {best : Option Slot} {b : Slot}
    (h : ws.foldl (p.better latency) best = some b) :
    (∀ a, best = some a → b.time ≤ a.time) ∧
      ∀ w ∈ ws, ∀ a, p.slot? latency w = some a → b.time ≤ a.time := by
  induction ws generalizing best with
  | nil =>
      refine ⟨fun a ha => ?_, fun w hw => absurd hw List.not_mem_nil⟩
      rw [List.foldl_nil, ha] at h
      exact (congrArg Slot.time (Option.some.inj h)).ge
  | cons v ws ih =>
      obtain ⟨hbetter, hrest⟩ := ih h
      -- whatever is there before or at the worker, the better of the two is no later
      have hfirst {a : Slot} (ha : best = some a ∨ p.slot? latency v = some a) :
          b.time ≤ a.time := by
        cases hsome : p.better latency best v with
        | none =>
            obtain ⟨hbest, hslot⟩ := (better_eq latency p best v).2 hsome
            rw [hbest, hslot] at ha
            rcases ha with ha | ha <;> cases ha
        | some u =>
            obtain ⟨hle, hle'⟩ := better_le hsome
            exact (hbetter u hsome).trans (ha.elim (hle a) (hle' a))
      exact ⟨fun a ha => hfirst (.inl ha),
        List.forall_mem_cons.mpr ⟨fun a ha => hfirst (.inr ha), hrest⟩⟩

/-- Nobody can go on before the slot of a queue that was just made. -/
lemma gather_idle (latency : Latency) (p : Pool σ) :
    p.Idle latency (p.gather latency).slot.time := by
  intro i w t hw ht
  rw [gather]
  split
  · exact Nat.zero_le t
  · rename_i s hs
    rw [firstSlot?_eq] at hs
    rw [← Array.getElem?_toList] at hw
    exact (foldl_better_le hs).2 w (List.mem_of_getElem? hw) ⟨t, w.reached⟩ (by rw [slot?, ht])

/-- A queue stays up to date when it is renewed. -/
lemma renew_idle (h : q.signals = p.signals → p.Idle latency q.slot.time) :
    p.Idle latency (p.renew latency q).slot.time := by
  rw [renew]
  by_cases hsignals : q.signals = p.signals
  · rw [if_pos hsignals]
    split
    · exact gather_idle latency p
    · exact h hsignals
  · rw [if_neg hsignals]
    exact gather_idle latency p

/-- Where somebody can go on, a renewed queue was made under the signals as they are. -/
lemma renew_signals {i : ℕ} {s : Slot} (hw : p.workers[i]? = some w)
    (hslot : p.slot? latency w = some s) (q : Queue) :
    (p.renew latency q).signals = p.signals := by
  -- as long as a worker has a slot the queue is gathered anew
  have hgather : (p.gather latency).signals = p.signals := by
    rw [gather]
    split
    · rename_i hnone
      rw [firstSlot?_eq] at hnone
      rw [← Array.getElem?_toList] at hw
      have hslot' := ((foldl_better latency p p.workers.toList none).1 hnone).2 w
        (List.mem_of_getElem? hw)
      rw [hslot] at hslot'
      cases hslot'
    · rfl
  rw [renew]
  by_cases hsignals : q.signals = p.signals
  · rw [if_pos hsignals]
    split
    · exact hgather
    · exact hsignals
  · rw [if_neg hsignals]
    exact hgather

end Pool

/-- Where there are no chains, there is nothing to wait for. -/
lemma Pressure.start_isOver : (Pressure.start 0).isOver = true := by
  simp [Pressure.start, Pressure.isOver]

namespace Run

variable {σ : Type} {s : Setting σ} {r r' : Run σ} {e : Event} {latency : Latency}
  {q : Pool.Queue}

/-! ### The clock -/

/-- A run in which everything waits for at least so many nanoseconds: for the answers to its calls,
for pauses to be over, or for the deadline. Chains never wait while they are there. -/
structure Rests (latency : Latency) (r : Run σ) (d : ℕ) : Prop where
  phase : r.phase = .gathering
  isOver : r.pool.isOver = false
  chains : r.pressure.isOver = true
  workers : r.pool.Idle latency (r.pool.now + d)
  alarm : ∀ t, r.alarm = some t → r.pool.now + d ≤ t

/-- Events by which time goes by only while the run rests. -/
def OnClock (s : Setting σ) (latency : Latency) (r : Run σ) : List Event → Prop
  | [] => True
  | e :: events => (∀ d, e = .tick d → 0 < d → r.Rests latency d) ∧
      OnClock s latency (r.step s e) events

/-! ### A simulated run -/

/-- Nobody can go on before the slot of the queue, as long as that is needed. Before the workers are
waited for no queue was made yet. -/
def InTime (latency : Latency) (q : Pool.Queue) (r : Run σ) : Prop :=
  q.slot.time = 0 ∨ phasesLeft r.phase ≤ 5 ∨
    r.phase = .gathering ∧ (q.signals = r.pool.signals → r.pool.Idle latency q.slot.time)

lemma InTime.idle (h : InTime latency q r) (hp : r.phase = .gathering) :
    r.pool.Idle latency (r.renew latency q).slot.time := by
  have hrenew : r.renew latency q = r.pool.renew latency q := by rw [renew, hp]
  rw [hrenew]
  refine Pool.renew_idle fun hsignals => ?_
  rcases h with hzero | hlate | ⟨-, hidle⟩
  · exact .of_le_now (hzero ▸ Nat.zero_le _)
  · rw [hp] at hlate
    exact absurd hlate (by decide)
  · exact hidle hsignals

lemma Stepped.phasesLeft_le (hs : Stepped s r e r') : phasesLeft r'.phase ≤ phasesLeft r.phase := by
  cases hs with
  | control hs => exact hs.phasesLeft_lt.le
  | _ => exact le_rfl

/-- Outside the wait for the workers a run has something to do at once. -/
lemma next_at_once (hp : r.phase ≠ .gathering) (cancelAt : Option ℕ) (q : Pool.Queue) :
    (r.next cancelAt q).time = r.pool.now ∧
      ((r.next cancelAt q).event = .control ∨ (r.next cancelAt q).event = .link 0) := by
  cases hphase : r.phase with
  | gathering => exact absurd hphase hp
  | retiring =>
      simp only [next, hphase]
      split
      · exact ⟨rfl, .inl rfl⟩
      · exact ⟨rfl, .inr rfl⟩
  | _ =>
      simp only [next, hphase]
      exact ⟨trivial, .inl trivial⟩

/-- Without a cancellation from outside there is only the deadline. -/
lemma outside_none (r : Run σ) : r.outside none = r.alarmAt := by
  rw [outside]
  cases r.alarmAt with
  | none =>
      split <;> rfl
  | some a =>
      split <;> rfl

lemma movePool_phase (r : Run σ) (e : Pool.Event) : (r.movePool e).phase = r.phase := by
  rw [movePool]
  split <;> rfl

/-- An event that neither comes from outside nor lets time go by. -/
def Event.isMove : Event → Bool
  | .cancel | .tick _ => false
  | _ => true

/-- **Time goes by only while everything waits**: where the next thing does not happen at once the
run rests until then. -/
lemma rests_until_next (h : OnItsWay s r) (hchains : r.pressure.isOver = true)
    (htime : InTime latency q r) :
    (r.next none (r.renew latency q)).event.isMove = true ∧
      (r.pool.now < (r.next none (r.renew latency q)).time →
        r.Rests latency ((r.next none (r.renew latency q)).time - r.pool.now)) := by
  by_cases hp : r.phase = .gathering
  · have hidle := htime.idle hp
    rcases next_gathering h hp latency none q with
      ⟨hover, hnext⟩ | ⟨i, w, hw, hslot, hcases⟩
    · rw [hnext]
      exact ⟨rfl, fun hlt => absurd hlt (Nat.lt_irrefl _)⟩
    · have hover : r.pool.isOver = false := by
        refine Bool.eq_false_of_not_eq_true fun hover => ?_
        obtain ⟨x, hx⟩ := Pool.stage_of_isOver hover hw
        rw [Pool.slot?, Pool.due, hx] at hslot
        cases hslot
      -- until the appointment nobody is due, neither a worker nor the alarm
      have hrests {a : Appointment} (hworker : a.time ≤ (r.renew latency q).slot.time)
          (halarm : ∀ t, r.alarm = some t → a.time ≤ t) (hlt : r.pool.now < a.time) :
          r.Rests latency (a.time - r.pool.now) := by
        have htime : r.pool.now + (a.time - r.pool.now) = a.time := by omega
        refine ⟨hp, hover, hchains, ?_, ?_⟩
        · rw [htime]
          exact fun i w t hw ht => hworker.trans (hidle i w t hw ht)
        · rw [htime]
          exact halarm
      rw [outside_none] at hcases
      rcases hcases with ⟨hnext, hlater⟩ | ⟨a, ha, hle, hnext⟩
      · rw [hnext]
        refine ⟨?_, hrests le_rfl fun t ht => (hlater ⟨t, .alarm⟩ (by rw [alarmAt, ht]; rfl)).le⟩
        rcases Pool.eventOf_cases r.pool w with ⟨j, he⟩ | ⟨j, he⟩ <;> rw [he] <;> rfl
      · rw [hnext]
        rw [alarmAt, Option.map_eq_some_iff] at ha
        obtain ⟨due, halarm, rfl⟩ := ha
        refine ⟨rfl, hrests hle fun t ht => ?_⟩
        rw [halarm] at ht
        exact (Option.some.inj ht).le
  · obtain ⟨hnow, hevent⟩ := next_at_once hp none (r.renew latency q)
    refine ⟨?_, fun hlt => absurd hlt (by omega)⟩
    rcases hevent with hevent | hevent <;> rw [hevent] <;> rfl

/-- The next thing that happens leaves the queue up to date. -/
lemma InTime.next (h : OnItsWay s r) (htime : InTime latency q r) :
    InTime latency (r.renew latency q)
      ((r.atTime (r.next none (r.renew latency q)).time).step s
        (r.next none (r.renew latency q)).event) := by
  by_cases hp : r.phase = .gathering
  · have hidle := htime.idle hp
    rcases next_gathering h hp latency none q with
      ⟨hover, hnext⟩ | ⟨i, w, hw, hslot, ⟨hnext, -⟩ | ⟨a, ha, -, hnext⟩⟩ <;> rw [hnext]
    · -- the run goes on, and its workers are not waited for any more
      have hready : (r.atTime r.pool.now).Ready := by
        rw [Ready, atTime, hp]
        exact hover
      have hless := (advanced s (r.atTime r.pool.now) hready).phasesLeft_lt
      have hsix : phasesLeft (r.atTime r.pool.now).phase = 6 := congrArg phasesLeft hp
      rw [hsix] at hless
      exact .inr (.inl (Nat.le_of_lt_succ hless))
    · -- the moment of the slot has come, and nobody can go on in the past
      set moment := (r.renew latency q).slot.time
      have hs := stepped s (r.atTime moment) (ofPoolEvent (r.pool.eventOf w))
      obtain ⟨d, hnow⟩ := hs.now
      have hphase : ((r.atTime moment).step s (ofPoolEvent (r.pool.eventOf w))).phase =
          r.phase := by
        rcases Pool.eventOf_cases r.pool w with ⟨j, he⟩ | ⟨j, he⟩ <;> rw [he]
        · exact (r.atTime moment).movePool_phase (.turn j)
        · exact (r.atTime moment).movePool_phase (.interrupt j)
      refine .inr (.inr ⟨hphase.trans hp, fun _ => .of_le_now ?_⟩)
      rw [hnow]
      exact (Nat.le_max_right _ _).trans (Nat.le_add_right _ _)
    · -- the deadline leaves everybody where they are, unless the signals change
      rw [outside_none, alarmAt, Option.map_eq_some_iff] at ha
      obtain ⟨due, -, rfl⟩ := ha
      have hlater : r.pool.now ≤ (r.atTime due).pool.now := Nat.le_max_left _ _
      have hs := stepped s (r.atTime due) .alarm
      have hsignals := Pool.renew_signals hw hslot q
      have hrenew : r.renew latency q = r.pool.renew latency q := by rw [renew, hp]
      rw [← hrenew] at hsignals
      generalize (r.atTime due).step s .alarm = r' at hs
      cases hs with
      | ring halarm hlimit hdue =>
          refine .inr (.inr ⟨hp, fun hsame => hidle.later (hsame.symm.trans hsignals) ?_ ?_⟩)
          · exact Pool.requestShutdown_workers _
          · rw [Pool.requestShutdown_now]
            exact hlater
      | idle => exact .inr (.inr ⟨hp, fun hsame => hidle.later rfl rfl hlater⟩)
  · have hs := stepped s (r.atTime (r.next none (r.renew latency q)).time)
      (r.next none (r.renew latency q)).event
    have hrenew : r.renew latency q = q := by
      rw [renew]
      split
      · rename_i hgathering
        exact absurd hgathering hp
      · rfl
    rcases htime with hzero | hlate | ⟨hgathering, -⟩
    · exact .inl (by rw [hrenew, hzero])
    · exact .inr (.inl (hs.phasesLeft_le.trans hlate))
    · exact absurd hgathering hp

/-- Without chains there are never any links. -/
lemma Stepped.chains (hs : Stepped s r e r') (hnone : chainCount s = 0)
    (hchains : r.pressure.isOver = true) : r'.pressure.isOver = true := by
  cases hs with
  | control hs =>
      rcases hs.alarm with ⟨-, db, rfl⟩ | ⟨-, hsame⟩
      · show (Pressure.start (chainCount s)).isOver = true
        rw [hnone]
        exact Pressure.start_isOver
      · rw [hsame]
        exact hchains
  | link i =>
      have hlinks : r.pressure.links[i]? = none := by
        rw [Pressure.isOver, Array.isEmpty_iff] at hchains
        rw [hchains]
        exact Array.getElem?_empty
      show (r.pressure.step r.pool.signals.shutdown i).1.isOver = true
      rw [Pressure.step, hlinks]
      exact hchains
  | _ => exact hchains

/-- A simulated run goes by its clock. -/
lemma simulate_onClock (hnone : chainCount s = 0) (h : OnItsWay s r)
    (hchains : r.pressure.isOver = true) (htime : InTime latency q r) (n : ℕ) :
    ∃ events, (∀ e ∈ events, e ≠ .cancel) ∧ OnClock s latency r events ∧
      simulate s latency none n q r = r.run s events := by
  -- time goes by until the next thing happens, and then it happens
  induction n generalizing q r with
  | zero => exact ⟨[], by simp, trivial, rfl⟩
  | succ n ih =>
      by_cases hended : ∃ o, r.phase = .ended o
      · obtain ⟨o, hp⟩ := hended
        exact ⟨[], by simp, trivial, simulate_of_ended s latency none (n + 1) q hp⟩
      · rw [simulate_succ s latency none n q (not_exists.mp hended)]
        obtain ⟨hmove, hrests⟩ := rests_until_next h hchains htime
        have hlater := htime.next h
        generalize r.next none (r.renew latency q) = a at hmove hrests hlater ⊢
        have htick := stepped s r (.tick (a.time - r.pool.now))
        rw [← atTime_eq] at htick
        have hevent := stepped s (r.atTime a.time) a.event
        obtain ⟨events, hevents, hclock, hrun⟩ := ih ((h.stepped htick).stepped hevent)
          (hevent.chains hnone (htick.chains hnone hchains)) hlater
        refine ⟨.tick (a.time - r.pool.now) :: a.event :: events, ?_, ⟨?_, ?_, ?_⟩, ?_⟩
        · have hcancel : a.event ≠ .cancel := by
            intro he
            rw [he] at hmove
            cases hmove
          exact List.forall_mem_cons.mpr ⟨Event.noConfusion,
            List.forall_mem_cons.mpr ⟨hcancel, hevents⟩⟩
        · intro d hd hpos
          cases hd
          exact hrests (by omega)
        · intro d hd
          rw [hd] at hmove
          cases hmove
        · rw [← atTime_eq]
          exact hclock
        · rw [run_cons, run_cons, ← atTime_eq]
          exact hrun

/-- **A simulated run without chains goes by its clock**, whatever time the calls take, and it comes
to its end. -/
theorem complete_onClock (s : Setting σ) (hnone : chainCount s = 0) (latency : Latency)
    (store : σ) :
    ∃ events, (∀ e ∈ events, e ≠ .cancel) ∧ OnClock s latency (begin s store) events ∧
      complete s latency none (begin s store) = (begin s store).run s events ∧
      ∃ o, ((begin s store).run s events).outcome? = some o := by
  have hchains : (begin s store).pressure.isOver = true := Pressure.start_isOver
  have htime : InTime latency Pool.Queue.empty (begin s store) := .inl rfl
  obtain ⟨events, hevents, hclock, hrun⟩ :=
    simulate_onClock hnone (.begin s store) hchains htime (fuel s)
  obtain ⟨events', hrun', hended⟩ := complete_ended s latency none store
  refine ⟨events, hevents, hclock, hrun, ?_⟩
  rw [← hrun', complete, hrun] at hended
  exact hended

end Run

end StoreSoak
