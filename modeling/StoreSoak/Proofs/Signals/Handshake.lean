import StoreSoak.Signals.Handshake
import StoreSoak.Proofs.Signals.Calls

/-!
The running handshake as a scene.

`Handshake.step` lets every task go as far as it can at once. In a scene the same comes about look by
look: first the step itself, then a round in which each call is polled.

* `Scene.round` is such a round, `Scene.run_round` what it does to the calls.
* `Plays`: a handshake and a scene that show the same signals and the same calls. `Plays.step`: every
  step of a handshake is a row of events of the scene.
* `plays_run` says it of every row of steps, so that what is proved of scenes holds of the running
  handshake; `waits_iff` says when a task is left waiting.
-/

namespace StoreSoak

namespace Signals

/-- A call that goes on has the given answer, or is parked without one. -/
def Call.ofAnswer : Option Bool → Call
  | none => .parked
  | some go => .answered go

/-- A call that looks at the start first goes on to the answer of the running definitions, also where
nobody is left to signal anything. -/
lemma Call.poll_start (s : Signals) {c : Call} (hc : c = .entered ∨ c = .parked) :
    c.poll s .start = .ofAnswer s.started := by
  obtain ⟨fired, shutdown, lifecycle, handle⟩ := s
  obtain rfl | rfl := hc <;> revert fired shutdown lifecycle handle <;> decide

namespace Scene

/-- The looks at which the calls from a place on are polled, each of them looking at the start
first. -/
def round (i : ℕ) : ℕ → List Event
  | 0 => []
  | n + 1 =>
    [.look i .start, .look i .start, .look i .shutdown, .look i .start] ++ round (i + 1) n

lemma modify_length_append (f : Call → Call) (done : List Call) (c : Call) (rest : List Call) :
    (done ++ c :: rest).modify done.length f = done ++ f c :: rest := by
  induction done with
  | nil => rfl
  | cons d done ih => rw [List.cons_append, List.length_cons, List.modify_succ_cons, ih]; rfl

/-- A round polls every call that is left, and nothing else happens at it. -/
lemma run_round (s : Signals) (handles : ℕ) (done rest : List Call) :
    run ⟨s, handles, done ++ rest⟩ (round done.length rest.length) =
      ⟨s, handles, done ++ rest.map (Call.poll s .start)⟩ := by
  induction rest generalizing done with
  | nil => simp [round, run]
  | cons c rest ih =>
      have hpolled : run ⟨s, handles, done ++ c :: rest⟩
          [.look done.length .start, .look done.length .start, .look done.length .shutdown,
            .look done.length .start] = ⟨s, handles, (done ++ [c.poll s .start]) ++ rest⟩ := by
        simp [run, step, modify_length_append, Call.poll, Branch.other]
      have hnext := ih (done ++ [c.poll s .start])
      rw [List.length_append, List.length_singleton] at hnext
      rw [List.length_cons, round, run_append, hpolled, hnext, List.append_assoc]
      rfl

end Scene

end Signals

namespace Handshake

open Signals (Scene)
open Signals.Scene (new)

/-- The tasks that wait for their start, as calls. -/
def calls (h : Handshake) : List Signals.Call :=
  (h.waiters.filter fun w => w.2.awaited = .started).map fun w => .ofAnswer w.2.answer

/-- A handshake and a scene that show the same. -/
structure Plays (h : Handshake) (sc : Scene) : Prop where
  signals : sc.signals = h.signals
  handles : sc.handles ≤ 1
  calls : sc.calls = h.calls

/-- A task that waits for its start settles as its call is polled. -/
lemma ofAnswer_settle (s : Signals) {w : Waiter} (hw : w.awaited = .started) :
    Signals.Call.ofAnswer (w.settle s).answer = (Signals.Call.ofAnswer w.answer).poll s .start := by
  cases hanswer : w.answer with
  | none =>
      rw [Signals.Call.ofAnswer, Signals.Call.poll_start s (.inr rfl), Waiter.settle, hanswer, hw]
  | some go =>
      simp [Waiter.settle, hanswer, Signals.Call.ofAnswer, Signals.Call.poll, Signals.Call.look]

lemma awaited_settle (s : Signals) (w : Waiter) : (w.settle s).awaited = w.awaited := by
  rw [Waiter.settle]
  split <;> rfl

lemma calls_settle (h : Handshake) :
    h.settle.calls = h.calls.map (Signals.Call.poll h.signals .start) := by
  rw [calls, settle, List.filter_map, List.map_map, calls, List.map_map]
  have hfilter : (fun w : String × Waiter => decide (w.2.awaited = .started)) ∘
      (fun w : String × Waiter => (w.1, w.2.settle h.signals)) =
        fun w => decide (w.2.awaited = .started) := by
    funext w
    simp [awaited_settle]
  rw [hfilter]
  refine List.map_congr_left fun w hw => ?_
  exact ofAnswer_settle h.signals (of_decide_eq_true (List.mem_filter.mp hw).2)

/-- After a round in the scene the handshake has settled. -/
lemma Plays.settle {h : Handshake} {sc : Scene} (hsignals : sc.signals = h.signals)
    (hhandles : sc.handles ≤ 1)
    (hcalls : sc.calls.map (Signals.Call.poll h.signals .start) =
      h.calls.map (Signals.Call.poll h.signals .start)) :
    h.settle.Plays (sc.run (Scene.round 0 sc.calls.length)) := by
  obtain ⟨s, handles, calls⟩ := sc
  obtain rfl : s = h.signals := hsignals
  have hround := Scene.run_round h.signals handles [] calls
  rw [List.nil_append, List.length_nil, List.nil_append] at hround
  rw [hround]
  exact ⟨rfl, hhandles, hcalls.trans h.calls_settle.symm⟩

/-- What a step does before the tasks go on is a row of events. A call that begins has not looked
yet, but it gets as far as one that is parked. -/
lemma Plays.act {h : Handshake} {sc : Scene} (hp : h.Plays sc) (p : Step) : ∃ events,
    (sc.run events).signals = (h.act p).signals ∧ (sc.run events).handles ≤ 1 ∧
      (sc.run events).calls.map (Signals.Call.poll (h.act p).signals .start) =
        (h.act p).calls.map (Signals.Call.poll (h.act p).signals .start) := by
  obtain ⟨hsignals, hhandles, hcalls⟩ := hp
  -- one event of the scene for each step, and none where the step does nothing
  cases p with
  | start =>
      refine ⟨[.start], congrArg Signals.start hsignals, hhandles, ?_⟩
      exact congrArg (List.map _) hcalls
  | cancel =>
      rw [Handshake.act]
      split
      · refine ⟨[.cancel], congrArg Signals.cancel hsignals, hhandles, ?_⟩
        exact congrArg (List.map _) hcalls
      · exact ⟨[], hsignals, hhandles, congrArg (List.map _) hcalls⟩
  | dropLifecycle =>
      refine ⟨[.dropLifecycle], congrArg Signals.dropLifecycle hsignals, hhandles, ?_⟩
      exact congrArg (List.map _) hcalls
  | dropHandle =>
      refine ⟨[.dropHandle], ?_, (Nat.sub_le _ _).trans hhandles, congrArg (List.map _) hcalls⟩
      rw [Handshake.act, ← hsignals]
      exact if_pos hhandles
  | look => exact ⟨[], hsignals, hhandles, congrArg (List.map _) hcalls⟩
  | await name awaited =>
      cases awaited with
      | started =>
          refine ⟨[.call], hsignals, hhandles, ?_⟩
          have hmore : (h.act (.await name .started)).calls = h.calls ++ [.parked] := by
            simp [Handshake.act, Handshake.calls, Signals.Call.ofAnswer]
          have hbegun : (sc.run [.call]).calls = h.calls ++ [.entered] := by
            rw [← hcalls]
            rfl
          rw [hmore, hbegun, List.map_append, List.map_append, List.map_singleton,
            List.map_singleton, Signals.Call.poll_start _ (.inl rfl),
            Signals.Call.poll_start _ (.inr rfl)]
      | cancelled =>
          refine ⟨[], hsignals, hhandles, congrArg (List.map _) (hcalls.trans ?_)⟩
          simp [Handshake.act, Handshake.calls]

/-- Every step of a handshake is a row of events of the scene. -/
theorem Plays.step {h : Handshake} {sc : Scene} (hp : h.Plays sc) (p : Step) :
    ∃ events, (h.step p).Plays (sc.run events) := by
  obtain ⟨events, hsignals, hhandles, hcalls⟩ := hp.act p
  refine ⟨events ++ Scene.round 0 (sc.run events).calls.length, ?_⟩
  rw [Scene.run_append]
  exact .settle hsignals hhandles hcalls

lemma Plays.run {h h' : Handshake} {sc : Scene} (hp : h.Plays sc) {steps : List Step}
    (hh' : h' ∈ h.run steps) : ∃ events, h'.Plays (sc.run events) := by
  induction steps generalizing h sc with
  | nil => exact absurd hh' List.not_mem_nil
  | cons p steps ih =>
      obtain ⟨events, hplays⟩ := hp.step p
      rcases List.mem_cons.mp hh' with rfl | hh'
      · exact ⟨events, hplays⟩
      · obtain ⟨later, hlater⟩ := ih hplays hh'
        refine ⟨events ++ later, ?_⟩
        rw [Scene.run_append]
        exact hlater

/-- Whatever the steps, the handshake after each of them shows what a scene shows: its signals are
those of the scene, and its tasks that wait for their start stand as the calls do. -/
theorem plays_run {steps : List Step} {h : Handshake} (hh : h ∈ start.run steps) :
    ∃ events, h.Plays (new.run events) := by
  have hstart : start.Plays (new.run [.takeHandle]) := ⟨rfl, le_rfl, rfl⟩
  obtain ⟨events, hplays⟩ := hstart.run hh
  refine ⟨.takeHandle :: events, ?_⟩
  exact hplays

/-- After a step a task that waits for its start has the answer that there is, if any. -/
lemma answer_of_mem_run {h h' : Handshake} {steps : List Step} (hh' : h' ∈ h.run steps)
    {name : String} {w : Waiter} (hw : (name, w) ∈ h'.waiters) (hawaited : w.awaited = .started)
    (hnone : w.answer = none) : h'.signals.started = none := by
  induction steps generalizing h with
  | nil => exact absurd hh' List.not_mem_nil
  | cons p steps ih =>
      rcases List.mem_cons.mp hh' with rfl | hh'
      · obtain ⟨⟨name', w'⟩, -, hsettled⟩ := List.mem_map.mp hw
        obtain ⟨rfl, rfl⟩ := Prod.mk.inj hsettled
        rw [awaited_settle] at hawaited
        rw [Waiter.settle] at hnone
        split at hnone
        · rename_i hsome
          exact absurd (hsome.symm.trans hnone) (Option.some_ne_none _)
        · rw [hawaited] at hnone
          exact hnone
      · exact ih hh'

/-- After every step a task is left waiting for its start exactly as long as the start is not
signalled, the lifecycle exists and there is no shutdown; provided somebody can ask for it. -/
theorem waits_iff {steps : List Step} {h : Handshake} (hh : h ∈ start.run steps)
    (halive : h.signals.Alive) {name : String} {w : Waiter} (hw : (name, w) ∈ h.waiters)
    (hawaited : w.awaited = .started) : w.answer = none ↔ h.signals.Held := by
  obtain ⟨events, hplays⟩ := plays_run hh
  -- the waiter is one of the calls of the scene that plays the same row
  have hmem : Signals.Call.ofAnswer w.answer ∈ (new.run events).calls := by
    rw [hplays.calls]
    exact List.mem_map.mpr ⟨(name, w), List.mem_filter.mpr ⟨hw, by simpa using hawaited⟩, rfl⟩
  have hfits : (Signals.Call.ofAnswer w.answer).Fits h.signals := by
    rw [← hplays.signals] at halive ⊢
    exact Scene.fits_run events halive hmem
  constructor
  · intro hnone
    have hstarted := answer_of_mem_run hh hw hawaited hnone
    rw [Signals.started_eq halive] at hstarted
    by_contra hheld
    rw [if_neg hheld] at hstarted
    exact Option.some_ne_none _ hstarted
  · intro hheld
    cases hanswer : w.answer with
    | none => rfl
    | some go =>
        rw [hanswer] at hfits
        exact absurd hheld hfits

end Handshake

end StoreSoak
