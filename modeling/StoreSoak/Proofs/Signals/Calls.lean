import StoreSoak.Proofs.Pool.Steps

/-!
How a call that waits for its start races with the signals.

`Signals.started` answers such a call in one go. Here a call goes on by single looks at the signals,
and between any two of them the signals may change.

* `Call.look` is one look. A parked call looks at one of its two waits; which one it looks at first
  is open, and so is which one it notices when both are over.
* A `Scene` holds the signals, the number of shutdown handles beside the lifecycle, and any number
  of calls. `Scene.step` is what can happen in it: a signal is raised, a handle is taken or given
  up, the lifecycle is given up, a call begins or looks.
* `Held`: no start signal, no shutdown, and the lifecycle in place. As long as somebody can ask for
  the shutdown, a call is blocked exactly then, and its answer is always
  `s.fired && !s.shutdown` (`started_eq`).
* `Call.Fits` is the invariant: a call that has noticed the end of a wait and has not answered yet
  carries what it will answer, unless a shutdown overtakes it. `Scene.fits_run` carries it along a
  scene.
* `fired_run`, `lifecycle_run`, `shutdown_run`: what the signals of a scene are is said by its events
  alone. `answer_iff` reads an answer off the events.
* `handshake` puts this together for every scene.
-/

namespace StoreSoak

namespace Signals

/-! ### The signals as a waiting call sees them -/

/-- Nothing is there to release a call: no signal is raised, and the lifecycle exists. -/
def Held (s : Signals) : Prop :=
  s.fired = false ∧ s.lifecycle = true ∧ s.shutdown = false

instance (s : Signals) : Decidable s.Held :=
  inferInstanceAs (Decidable (_ ∧ _ ∧ _))

/-- Somebody can ask for the shutdown. -/
def Alive (s : Signals) : Prop :=
  s.lifecycle = true ∨ s.handle = true

/-- What a call makes of the end of a wait: only the start signal releases it. -/
def released (s : Signals) : Branch → Bool
  | .start => s.waitStart = .fulfilled
  | .shutdown => false

/-- The other one of the two waits. -/
def Branch.other : Branch → Branch
  | .start => .shutdown
  | .shutdown => .start

variable {s s' : Signals}

@[simp] lemma released_start (s : Signals) : s.released .start = s.fired := by
  cases hfired : s.fired <;> cases hlifecycle : s.lifecycle <;>
    simp [released, waitStart, Wait.of, hfired, hlifecycle]

@[simp] lemma released_shutdown (s : Signals) : s.released .shutdown = false := rfl

lemma ready_start (s : Signals) : s.ready .start = (s.fired || !s.lifecycle) := by
  cases hfired : s.fired <;> cases hlifecycle : s.lifecycle <;>
    simp [ready, waitStart, Wait.of, hfired, hlifecycle]

/-- As long as somebody can ask for the shutdown, the wait for it ends by the signal only. -/
lemma ready_shutdown (h : s.Alive) : s.ready .shutdown = s.shutdown := by
  have hsender : (s.lifecycle || s.handle) = true := by
    simpa [Alive] using h
  cases hshutdown : s.shutdown <;>
    simp [ready, waitShutdown, Wait.of, hshutdown, hsender]

/-- What the running definitions answer at the end of a wait is what a call makes of it, looked at
again for a shutdown. -/
lemma outcome_eq (s : Signals) (b : Branch) : s.outcome b = (s.released b && !s.shutdown) := by
  cases b <;> simp [outcome, released]

/-- A call is held exactly as long as neither of its waits is over. -/
lemma held_iff (h : s.Alive) : s.Held ↔ ∀ b, s.ready b = false := by
  constructor
  · rintro ⟨hfired, hlifecycle, hshutdown⟩ b
    cases b with
    | start => simp [ready_start, hfired, hlifecycle]
    | shutdown => rw [ready_shutdown h, hshutdown]
  · intro hready
    have hstart : s.fired = false ∧ s.lifecycle = true := by
      simpa [ready_start] using hready .start
    have hshutdown : s.shutdown = false := by
      rw [← ready_shutdown h]
      exact hready .shutdown
    exact ⟨hstart.1, hstart.2, hshutdown⟩

/-- Whichever wait is over, what a call makes of it is whether the start was signalled, unless there
is a shutdown. -/
lemma released_eq (h : s.Alive) (hshutdown : s.shutdown = false) {b : Branch}
    (hb : s.ready b = true) : s.released b = s.fired := by
  cases b with
  | start => exact released_start s
  | shutdown =>
      rw [ready_shutdown h, hshutdown] at hb
      exact absurd hb Bool.false_ne_true

lemma not_held_of_ready (h : s.Alive) {b : Branch} (hb : s.ready b = true) : ¬ s.Held := fun hheld =>
  absurd (((held_iff h).mp hheld b).symm.trans hb) Bool.false_ne_true

/-- The answer to a call, where somebody can ask for the shutdown. -/
theorem started_eq (h : s.Alive) :
    s.started = if s.Held then none else some (s.fired && !s.shutdown) := by
  rw [started]
  cases hshutdown : s.shutdown with
  | true => simp [Held, hshutdown]
  | false =>
      have hready : s.ready .shutdown = false := by rw [ready_shutdown h, hshutdown]
      have hstart : s.ready .start = true ↔ ¬ s.Held := by
        simp [ready_start, Held, hshutdown, ← Bool.not_eq_true, or_iff_not_imp_left]
      by_cases hheld : s.Held
      · simp [hheld, hready, mt hstart.mp (not_not_intro hheld)]
      · simp [hheld, hstart.mpr hheld, outcome_eq, hshutdown]

/-! ### One call -/

/-- How far a call that waits for its start is. -/
inductive Call where
  /-- It has not looked at the signals yet. -/
  | entered
  /-- It found no shutdown and waits for either signal. -/
  | parked
  /-- One of its waits is over, with a start signal or without one. -/
  | noticed (released : Bool)
  | answered (go : Bool)
  deriving DecidableEq, Repr

namespace Call

/-- One look of a call at the signals; a parked call looks at the given wait. -/
def look (s : Signals) (b : Branch) : Call → Call
  | .entered => if s.shutdown then .answered false else .parked
  | .parked => if s.ready b then .noticed (s.released b) else .parked
  | .noticed released => .answered (released && !s.shutdown)
  | .answered go => .answered go

/-- The answer of a call, once it has one. -/
def answer? : Call → Option Bool
  | .answered go => some go
  | _ => none

/-- A call goes on until it has its answer or both of its waits are pending, at signals that stay as
they are; the given wait is looked at before the other one. -/
def poll (s : Signals) (first : Branch) (c : Call) : Call :=
  (((c.look s first).look s first).look s first.other).look s first

/-- What a call has seen agrees with the signals: the end of a wait is not noticed while the call is
held, and what was made of it is still right, or there is a shutdown. -/
def Fits (s : Signals) : Call → Prop
  | .entered => True
  | .parked => True
  | .noticed released => ¬ s.Held ∧ (s.shutdown = false → released = s.fired)
  | .answered _ => ¬ s.Held

variable {c : Call}

/-- A look keeps what a call has seen in agreement with the signals. -/
lemma Fits.look (hc : c.Fits s) (h : s.Alive) (b : Branch) : (c.look s b).Fits s := by
  cases c with
  | entered =>
      cases hshutdown : s.shutdown <;> simp [Call.look, Fits, Held, hshutdown]
  | parked =>
      rw [Call.look]
      split
      · rename_i hb
        exact ⟨not_held_of_ready h hb, fun hshutdown => released_eq h hshutdown hb⟩
      · trivial
  | noticed released => exact hc.1
  | answered go => exact hc

/-- A call that answers answers whether the start was signalled and no shutdown was. -/
lemma Fits.answer (hc : c.Fits s) (hnone : c.answer? = none) {b : Branch} {go : Bool}
    (hgo : (c.look s b).answer? = some go) : go = (s.fired && !s.shutdown) := by
  cases c with
  | entered =>
      cases hshutdown : s.shutdown <;> simp_all [Call.look, answer?]
  | parked =>
      rw [Call.look] at hgo
      split at hgo <;> simp [answer?] at hgo
  | noticed released =>
      have hreleased := hc.2
      cases hshutdown : s.shutdown <;> simp_all [Call.look, answer?]
  | answered go' => simp [answer?] at hnone

/-- A call that is held has noticed nothing. -/
lemma Fits.of_held (hc : c.Fits s) (hheld : s.Held) : c = .entered ∨ c = .parked := by
  cases c with
  | entered => exact .inl rfl
  | parked => exact .inr rfl
  | noticed released => exact absurd hheld hc.1
  | answered go => exact absurd hheld hc

/-- A parked call goes as far as the running definitions say, whichever wait it looks at first. -/
lemma poll_parked (h : s.Alive) (hshutdown : s.shutdown = false) (first : Branch) :
    (poll s first .parked).answer? = s.started := by
  have hready : s.ready .shutdown = false := by rw [ready_shutdown h, hshutdown]
  have hstarted : s.started = if s.ready .start then some s.fired else none := by
    simp [started, hready, hshutdown, outcome_eq]
  cases hstart : s.ready .start <;> cases first <;>
    simp [poll, look, answer?, Branch.other, hready, hstart, hstarted, hshutdown]

/-- A call that goes on at signals that stay as they are ends up with the answer of the running
definitions, whichever wait it looks at first. -/
theorem Fits.poll (hc : c.Fits s) (h : s.Alive) (hnone : c.answer? = none) (first : Branch) :
    (c.poll s first).answer? = s.started := by
  cases c with
  | entered =>
      cases hshutdown : s.shutdown with
      | true => simp [Call.poll, Call.look, answer?, started, hshutdown]
      | false =>
          rw [← poll_parked h hshutdown first]
          have hready : s.ready .shutdown = false := by rw [ready_shutdown h, hshutdown]
          cases hstart : s.ready .start <;> cases first <;>
            simp [Call.poll, Call.look, answer?, Branch.other, hready, hstart, hshutdown]
  | parked =>
      cases hshutdown : s.shutdown with
      | true =>
          have hready : s.ready .shutdown = true := by rw [ready_shutdown h, hshutdown]
          cases hstart : s.ready .start <;> cases first <;>
            simp [Call.poll, Call.look, answer?, Branch.other, started, hready, hstart, hshutdown]
      | false => exact poll_parked h hshutdown first
  | noticed released =>
      have hgo : (released && !s.shutdown) = (s.fired && !s.shutdown) :=
        hc.answer (b := first) rfl rfl
      rw [started_eq h, if_neg hc.1, ← hgo]
      rfl
  | answered go => simp [answer?] at hnone

end Call

/-! ### The signals go on -/

/-- How the signals may have changed in the meantime: what is raised stays raised, and what is given
up stays given up. -/
structure Onward (s s' : Signals) : Prop where
  fired : s.fired = true → s'.fired = true
  shutdown : s.shutdown = true → s'.shutdown = true
  lifecycle : s'.lifecycle = true → s.lifecycle = true
  /-- Without the lifecycle nobody can signal the start. -/
  start : s.lifecycle = false → s'.fired = s.fired
  alive : s'.Alive → s.Alive

namespace Onward

lemma refl (s : Signals) : Onward s s :=
  ⟨id, id, id, fun _ => rfl, id⟩

lemma trans {s'' : Signals} (h : Onward s s') (h' : Onward s' s'') : Onward s s'' where
  fired hs := h'.fired (h.fired hs)
  shutdown hs := h'.shutdown (h.shutdown hs)
  lifecycle hs := h.lifecycle (h'.lifecycle hs)
  start hs := by
    have hs' : s'.lifecycle = false :=
      Bool.eq_false_iff.mpr fun hlifecycle => by simp [h.lifecycle hlifecycle] at hs
    rw [h'.start hs', h.start hs]
  alive hs := h.alive (h'.alive hs)

lemma of_start (s : Signals) : Onward s s.start := by
  rw [start_eq]
  exact ⟨fun h => by simp [h], id, id, fun h => by simp [h], id⟩

lemma of_cancel (s : Signals) : Onward s s.cancel := by
  rw [cancel_eq]
  exact ⟨id, fun h => by simp [h], id, fun _ => rfl, id⟩

lemma of_dropLifecycle (s : Signals) : Onward s s.dropLifecycle :=
  ⟨id, id, fun h => absurd h Bool.false_ne_true, fun _ => rfl,
    fun h => .inr (h.resolve_left Bool.false_ne_true)⟩

lemma of_dropHandle (s : Signals) : Onward s s.dropHandle :=
  ⟨id, id, id, fun _ => rfl, fun h => .inl (h.resolve_right Bool.false_ne_true)⟩

/-- What holds a call was there before. -/
lemma held (h : Onward s s') (hheld : s'.Held) : s.Held := by
  obtain ⟨hfired, hlifecycle, hshutdown⟩ := hheld
  refine ⟨?_, h.lifecycle hlifecycle, ?_⟩
  · exact Bool.eq_false_iff.mpr fun hs => by simp [h.fired hs] at hfired
  · exact Bool.eq_false_iff.mpr fun hs => by simp [h.shutdown hs] at hshutdown

/-- What a call has seen agrees with the signals as they go on. -/
lemma fits (h : Onward s s') {c : Call} (hc : c.Fits s) : c.Fits s' := by
  cases c with
  | entered => trivial
  | parked => trivial
  | answered go => exact fun hheld => hc (h.held hheld)
  | noticed released =>
      refine ⟨fun hheld => hc.1 (h.held hheld), fun hshutdown => ?_⟩
      have hbefore : s.shutdown = false :=
        Bool.eq_false_iff.mpr fun hs => by simp [h.shutdown hs] at hshutdown
      rw [hc.2 hbefore]
      -- no longer held without a shutdown: the start is signalled, or nobody is left to signal it
      cases hfired : s.fired with
      | true => exact (h.fired hfired).symm
      | false =>
          have hlifecycle : s.lifecycle = false :=
            Bool.eq_false_iff.mpr fun hs => hc.1 ⟨hfired, hs, hbefore⟩
          exact (hfired.symm.trans (h.start hlifecycle).symm)

end Onward

/-! ### Scenes -/

/-- Calls that wait for their start, at signals that are raised and given up in any order. -/
structure Scene where
  signals : Signals
  /-- The shutdown handles beside the lifecycle's own. -/
  handles : ℕ
  calls : List Call

namespace Scene

/-- What can happen. -/
inductive Event where
  | start
  /-- The shutdown is asked for, through any handle. -/
  | cancel
  /-- A handle is made from the lifecycle or from another handle. -/
  | takeHandle
  | dropHandle
  | dropLifecycle
  /-- A call begins, on any of the contexts. -/
  | call
  /-- A call looks at the signals. -/
  | look (call : ℕ) (wait : Branch)
  deriving DecidableEq, Repr

/-- A lifecycle with no handle beside its own, and no call. -/
def new : Scene := ⟨{ fresh with handle := false }, 0, []⟩

/-- The scene after an event. -/
def step (sc : Scene) : Event → Scene
  | .start => { sc with signals := sc.signals.start }
  | .cancel => { sc with signals := sc.signals.cancel }
  | .takeHandle =>
    if sc.signals.lifecycle || sc.signals.handle then
      { sc with signals := { sc.signals with handle := true }, handles := sc.handles + 1 }
    else sc
  | .dropHandle =>
    { sc with
      signals := if sc.handles ≤ 1 then sc.signals.dropHandle else sc.signals
      handles := sc.handles - 1 }
  | .dropLifecycle => { sc with signals := sc.signals.dropLifecycle }
  | .call => { sc with calls := sc.calls ++ [.entered] }
  | .look i b => { sc with calls := sc.calls.modify i (Call.look sc.signals b) }

/-- The scene after events in order. -/
def run (sc : Scene) (events : List Event) : Scene :=
  events.foldl step sc

/-- What the calls have answered so far. -/
def answers (sc : Scene) : List (Option Bool) :=
  sc.calls.map Call.answer?

lemma run_append (sc : Scene) (events later : List Event) :
    sc.run (events ++ later) = (sc.run events).run later :=
  List.foldl_append

lemma run_append_singleton (sc : Scene) (events : List Event) (e : Event) :
    sc.run (events ++ [e]) = (sc.run events).step e :=
  sc.run_append events [e]

lemma onward_step (sc : Scene) (e : Event) : Onward sc.signals (sc.step e).signals := by
  cases e with
  | start => exact .of_start _
  | cancel => exact .of_cancel _
  | takeHandle =>
      rw [step]
      split
      · rename_i h
        exact ⟨id, id, id, fun _ => rfl, fun _ => by simpa [Alive] using h⟩
      · exact .refl _
  | dropHandle =>
      rw [step]
      dsimp only
      split
      · exact .of_dropHandle _
      · exact .refl _
  | dropLifecycle => exact .of_dropLifecycle _
  | call => exact .refl _
  | look i b => exact .refl _

/-- The signals show a handle as long as there is one. -/
lemma handle_run (events : List Event) :
    (new.run events).signals.handle = decide (0 < (new.run events).handles) := by
  -- from the end of the row: the last event changes the count of handles by one at most
  induction events using List.reverseRecOn with
  | nil => rfl
  | append_singleton events e ih =>
      rw [run_append_singleton]
      generalize new.run events = sc at ih ⊢
      cases e with
      | start =>
          rw [step, start_eq]
          exact ih
      | cancel =>
          rw [step, cancel_eq]
          exact ih
      | takeHandle =>
          rw [step]
          split
          · simp
          · exact ih
      | dropHandle =>
          rw [step]
          dsimp only
          split
          · rename_i h
            simp [dropHandle, show sc.handles - 1 = 0 by omega]
          · rename_i h
            rw [ih, decide_eq_decide]
            omega
      | dropLifecycle => exact ih
      | call => exact ih
      | look i b => exact ih

/-- In every scene what the calls have seen agrees with the signals, as long as somebody can ask for
the shutdown. -/
theorem fits_run (events : List Event) (h : (new.run events).signals.Alive) {c : Call}
    (hc : c ∈ (new.run events).calls) : c.Fits (new.run events).signals := by
  induction events using List.reverseRecOn generalizing c with
  | nil => exact absurd hc List.not_mem_nil
  | append_singleton events e ih =>
      rw [run_append_singleton] at h hc ⊢
      generalize new.run events = sc at ih h hc ⊢
      have honward := sc.onward_step e
      have hbefore := honward.alive h
      -- the calls that were there before, at the signals as they are now
      have hkept {c : Call} (hc : c ∈ sc.calls) : c.Fits (sc.step e).signals :=
        honward.fits (ih hbefore hc)
      cases e with
      | call =>
          rcases List.mem_append.mp hc with hc | hc
          · exact hkept hc
          · rw [List.mem_singleton.mp hc]
            trivial
      | look i b =>
          obtain ⟨j, hj⟩ := List.mem_iff_getElem?.mp hc
          have hj : (sc.calls.modify i (Call.look sc.signals b))[j]? = some c := hj
          rw [List.getElem?_modify, Option.map_eq_map, Option.map_eq_some_iff] at hj
          obtain ⟨c', hc', rfl⟩ := hj
          have hfits : c'.Fits sc.signals := ih hbefore (List.mem_of_getElem? hc')
          split
          · exact hfits.look hbefore b
          · exact hfits
      | takeHandle =>
          refine hkept ?_
          rw [step] at hc
          split at hc <;> exact hc
      | start => exact hkept hc
      | cancel => exact hkept hc
      | dropHandle => exact hkept hc
      | dropLifecycle => exact hkept hc

/-! ### The signals told by the events -/

/-- What one event brings about where it finds the scene ready for it, and what nothing takes back:
it is so after a row of events if that event is among them at such a place. -/
lemma run_iff_of_step {P Q : Scene → Prop} {e₀ : Event} (hnew : ¬ P new)
    (hstep : ∀ sc e, P (sc.step e) ↔ P sc ∨ e = e₀ ∧ Q sc) (events : List Event) :
    P (new.run events) ↔ ∃ before after, events = before ++ e₀ :: after ∧ Q (new.run before) := by
  induction events using List.reverseRecOn with
  | nil =>
      refine ⟨fun h => absurd h hnew, ?_⟩
      rintro ⟨before, after, hsplit, -⟩
      simp at hsplit
  | append_singleton events e ih =>
      rw [run_append_singleton, hstep, ih]
      constructor
      · rintro (⟨before, after, rfl, hready⟩ | ⟨rfl, hready⟩)
        · exact ⟨before, after ++ [e], by simp, hready⟩
        · exact ⟨events, [], rfl, hready⟩
      · rintro ⟨before, after, hsplit, hready⟩
        -- the event is the last one, or it was there already
        obtain rfl | ⟨after', e', rfl⟩ := after.eq_nil_or_concat
        · obtain ⟨rfl, hlast⟩ := List.append_inj' hsplit rfl
          exact .inr ⟨(List.cons.inj hlast).1, hready⟩
        · have hsplit : events ++ [e] = (before ++ e₀ :: after') ++ [e'] := by simpa using hsplit
          exact .inl ⟨before, after', (List.append_inj' hsplit rfl).1, hready⟩

/-- What one event does to the signals; handles come and go beside them. -/
lemma signals_step (sc : Scene) (e : Event) :
    ((sc.step e).signals.lifecycle = true ↔
      sc.signals.lifecycle = true ∧ e ≠ .dropLifecycle) ∧
    ((sc.step e).signals.fired = true ↔
      sc.signals.fired = true ∨ e = .start ∧ sc.signals.lifecycle = true) ∧
    ((sc.step e).signals.shutdown = true ↔
      sc.signals.shutdown = true ∨ e = .cancel ∧ sc.signals.Alive) := by
  cases e with
  | start => simp [step, start_eq]
  | cancel => simp [step, cancel_eq, Alive, or_assoc]
  | takeHandle => by_cases h : (sc.signals.lifecycle || sc.signals.handle) = true <;> simp [step, h]
  | dropHandle => by_cases h : sc.handles ≤ 1 <;> simp [step, h, dropHandle]
  | dropLifecycle => simp [step, dropLifecycle]
  | call => simp [step]
  | look i b => simp [step]

/-- The lifecycle exists until it is given up. -/
theorem lifecycle_run (events : List Event) :
    (new.run events).signals.lifecycle = true ↔ .dropLifecycle ∉ events := by
  induction events using List.reverseRecOn with
  | nil => simp [run, new, fresh]
  | append_singleton events e ih =>
      rw [run_append_singleton, (signals_step _ e).1, ih, List.mem_append, List.mem_singleton,
        not_or, ne_comm]

/-- The start is signalled by a `start` at which the lifecycle has not been given up. -/
theorem fired_run (events : List Event) : (new.run events).signals.fired = true ↔
    ∃ before after, events = before ++ .start :: after ∧ .dropLifecycle ∉ before := by
  simp only [← lifecycle_run]
  exact run_iff_of_step (P := fun sc => sc.signals.fired = true) (by decide)
    (fun sc e => (sc.signals_step e).2.1) events

/-- The shutdown is signalled by a `cancel` at which the lifecycle or a handle is left. -/
theorem shutdown_run (events : List Event) : (new.run events).signals.shutdown = true ↔
    ∃ before after, events = before ++ .cancel :: after ∧ (new.run before).signals.Alive :=
  run_iff_of_step (P := fun sc => sc.signals.shutdown = true) (by decide)
    (fun sc e => (sc.signals_step e).2.2) events

lemma onward_run (sc : Scene) (events : List Event) : Onward sc.signals (sc.run events).signals := by
  induction events generalizing sc with
  | nil => exact .refl _
  | cons e events ih => exact (sc.onward_step e).trans (ih (sc.step e))

/-- As long as the lifecycle or a handle is left, every `cancel` so far has had its effect. -/
theorem shutdown_run_of_alive (events : List Event) (h : (new.run events).signals.Alive) :
    (new.run events).signals.shutdown = true ↔ .cancel ∈ events := by
  rw [shutdown_run]
  constructor
  · rintro ⟨before, after, rfl, -⟩
    simp
  · intro hmem
    obtain ⟨before, after, rfl⟩ := List.append_of_mem hmem
    refine ⟨before, after, rfl, ?_⟩
    rw [run_append] at h
    exact ((new.run before).onward_run (.cancel :: after)).alive h

/-- What a call answers, told by the events: whether there was a `start` before the lifecycle was
given up, and no `cancel`. -/
theorem answer_iff (events : List Event) (h : (new.run events).signals.Alive) {i : ℕ} {c : Call}
    (hc : (new.run events).calls[i]? = some c) (hnone : c.answer? = none) {b : Branch} {go : Bool}
    (hgo : (c.look (new.run events).signals b).answer? = some go) :
    go = true ↔
      (∃ before after, events = before ++ .start :: after ∧ .dropLifecycle ∉ before) ∧
        .cancel ∉ events := by
  have hfits : c.Fits (new.run events).signals := fits_run events h (List.mem_of_getElem? hc)
  rw [hfits.answer hnone hgo, Bool.and_eq_true, fired_run, ← shutdown_run_of_alive events h,
    Bool.not_eq_true', Bool.not_eq_true]

/-! ### The choice between two waits that are over -/

/-- Two calls that differ at most in what they have noticed, with a shutdown beside it. -/
def Akin (s : Signals) (c c' : Call) : Prop :=
  c = c' ∨ s.shutdown = true ∧ ∃ r r', c = .noticed r ∧ c' = .noticed r'

lemma Akin.answer {c c' : Call} (h : Akin s c c') : c.answer? = c'.answer? := by
  obtain rfl | ⟨-, r, r', rfl, rfl⟩ := h <;> rfl

lemma Akin.look {c c' : Call} (h : Akin s c c') (b : Branch) :
    Akin s (c.look s b) (c'.look s b) := by
  obtain rfl | ⟨hshutdown, r, r', rfl, rfl⟩ := h
  · exact .inl rfl
  · exact .inl (by simp [Call.look, hshutdown])

lemma Akin.onward {c c' : Call} (h : Akin s c c') (ho : Onward s s') : Akin s' c c' :=
  h.imp_right fun h => ⟨ho.shutdown h.1, h.2⟩

/-- Scenes that differ at most in what some calls have noticed, with a shutdown beside it. -/
structure Alike (sc sc' : Scene) : Prop where
  signals : sc.signals = sc'.signals
  handles : sc.handles = sc'.handles
  calls : List.Forall₂ (Akin sc.signals) sc.calls sc'.calls

namespace Alike

variable {sc sc' : Scene}

lemma answers (h : Alike sc sc') : sc.answers = sc'.answers := by
  rw [Scene.answers, Scene.answers, ← List.forall₂_eq_eq_eq, List.forall₂_map_left_iff,
    List.forall₂_map_right_iff]
  exact h.calls.imp fun _ _ hc => hc.answer

/-- Two lists that agree place by place still do after one place of each was changed alike. -/
lemma forall₂_modify {R : Call → Call → Prop} {f g : Call → Call}
    (hfg : ∀ {c c'}, R c c' → R (f c) (g c')) {l l' : List Call} (h : List.Forall₂ R l l') (i : ℕ) :
    List.Forall₂ R (l.modify i f) (l'.modify i g) := by
  induction h generalizing i with
  | nil => cases i <;> exact .nil
  | cons hc hl ih =>
      cases i with
      | zero => exact .cons (hfg hc) hl
      | succ i => exact .cons hc (ih i)

lemma step (h : Alike sc sc') (e : Event) : Alike (sc.step e) (sc'.step e) := by
  have honward : ∀ c c', Akin sc.signals c c' → Akin (sc.step e).signals c c' :=
    fun _ _ hc => hc.onward (sc.onward_step e)
  have hcalls := h.calls.imp honward
  obtain ⟨s, handles, calls⟩ := sc
  obtain ⟨s', handles', calls'⟩ := sc'
  obtain rfl : s = s' := h.signals
  obtain rfl : handles = handles' := h.handles
  cases e with
  | call => exact ⟨rfl, rfl, List.rel_append hcalls (.cons (.inl rfl) .nil)⟩
  | look i b => exact ⟨rfl, rfl, forall₂_modify (fun hc => hc.look b) h.calls i⟩
  | takeHandle =>
      simp only [Scene.step] at hcalls ⊢
      split <;> exact ⟨rfl, rfl, h.calls⟩
  | start => exact ⟨rfl, rfl, hcalls⟩
  | cancel => exact ⟨rfl, rfl, hcalls⟩
  | dropHandle => exact ⟨rfl, rfl, hcalls⟩
  | dropLifecycle => exact ⟨rfl, rfl, hcalls⟩

lemma run (h : Alike sc sc') (later : List Event) : Alike (sc.run later) (sc'.run later) := by
  induction later generalizing sc sc' with
  | nil => exact h
  | cons e later ih => exact ih (h.step e)

end Alike

/-- Two different waits are over at once only with a shutdown. -/
lemma akin_of_ready (h : s.Alive) {b b' : Branch} (hb : s.ready b = true) (hb' : s.ready b' = true) :
    Akin s (.noticed (s.released b)) (.noticed (s.released b')) := by
  cases hshutdown : s.shutdown with
  | true => exact .inr ⟨hshutdown, _, _, rfl, rfl⟩
  | false => exact .inl (by rw [released_eq h hshutdown hb, released_eq h hshutdown hb'])

/-- Whichever of the waits that are over a parked call notices, no answer in the scene depends on it,
whatever happens later. -/
theorem answers_look (sc : Scene) (h : sc.signals.Alive) {i : ℕ}
    (hc : sc.calls[i]? = some .parked) {b b' : Branch} (hb : sc.signals.ready b = true)
    (hb' : sc.signals.ready b' = true) (later : List Event) :
    ((sc.step (.look i b)).run later).answers = ((sc.step (.look i b')).run later).answers := by
  -- the two scenes differ in one call, and its answer is the same from then on
  suffices halike : Alike (sc.step (.look i b)) (sc.step (.look i b')) from
    (halike.run later).answers
  refine ⟨rfl, rfl, ?_⟩
  refine List.forall₂_iff_get.mpr ⟨by simp [step], fun j hj hj' => ?_⟩
  simp only [step, List.get_eq_getElem, List.getElem_modify]
  split
  · rename_i hij
    have hlength : j < sc.calls.length := by simpa [step] using hj
    have hparked : sc.calls[j] = .parked := by
      rw [List.getElem_eq_iff, ← hij]
      exact hc
    rw [hparked, Call.look, Call.look, if_pos hb, if_pos hb']
    exact akin_of_ready h hb hb'
  · exact .inl rfl

/-! ### The handshake -/

/-- What the handshake promises to a call in a scene. -/
structure Promise (sc : Scene) (i : ℕ) (c : Call) : Prop where
  /-- A call that goes on ends up with the answer of the running definitions, whichever wait it looks
  at first. -/
  polled : c.answer? = none → ∀ first, (c.poll sc.signals first).answer? = sc.signals.started
  /-- It is blocked exactly as long as the start is not signalled, the lifecycle exists and there is
  no shutdown. -/
  blocked : sc.signals.started = none ↔ sc.signals.Held
  /-- Until then it has answered nothing. -/
  held : sc.signals.Held → c.answer? = none
  /-- At the look at which it answers, it answers whether the start was signalled and there is no
  shutdown. -/
  answer : c.answer? = none → ∀ b go, (c.look sc.signals b).answer? = some go →
    go = (sc.signals.fired && !sc.signals.shutdown)
  /-- Where both waits are over, it makes no difference to any answer which one it notices. -/
  either : c = .parked → ∀ b b', sc.signals.ready b = true → sc.signals.ready b' = true →
    ∀ later, ((sc.step (.look i b)).run later).answers = ((sc.step (.look i b')).run later).answers

/-- **The handshake.** Whatever has happened to the signals and the handles, and however the looks of
the calls fell in between, every call gets what is promised to it as long as the lifecycle or a
shutdown handle exists. -/
theorem handshake (events : List Event) {i : ℕ} {c : Call}
    (h : (new.run events).signals.lifecycle = true ∨ 0 < (new.run events).handles)
    (hc : (new.run events).calls[i]? = some c) : Promise (new.run events) i c := by
  have halive : (new.run events).signals.Alive :=
    h.imp_right fun hhandles => by rw [handle_run, decide_eq_true hhandles]
  have hfits : c.Fits (new.run events).signals := fits_run events halive (List.mem_of_getElem? hc)
  refine ⟨hfits.poll halive, ?_, fun hheld => ?_, fun hnone b go => hfits.answer hnone, ?_⟩
  · rw [started_eq halive]
    split <;> simp_all
  · obtain rfl | rfl := hfits.of_held hheld <;> rfl
  · rintro rfl b b' hb hb' later
    exact answers_look _ halive hc hb hb' later

/-- A call that was parked when the start was signalled and the shutdown asked for at once, with the
lifecycle given up and a handle left: both of its waits are over. -/
theorem handshake_raced :
    let sc := new.run [.call, .takeHandle, .look 0 .start, .start, .cancel, .dropLifecycle]
    (∀ b, sc.signals.ready b = true) ∧ Promise sc 0 .parked :=
  ⟨by rintro (_ | _) <;> rfl, handshake _ (.inr (by decide)) rfl⟩

end Scene

end Signals

end StoreSoak
