import StoreSoak.Pool
import StoreSoak.Proofs.Worker.History

/-!
What one event does to a pool.

* `Stepped` lists what can happen to a pool, one rule for every move of a worker; `stepped` says
  that every event does one of these things, and `run_induction` carries a property of pools along a
  run.
* `Stepped.turned`, `Stepped.worker`: after an event each worker is the same as before or has had
  its turn, at which it made one of its moves.
* `Stepped.signals`: what an event can do to the signals. Inside a pool it is a worker that `Aborts`
  it that asks for the shutdown.
* `Launched`: the invariant of a pool since its launch. Its workers stand in the order of their
  indices, and each of them is sound.
-/

namespace StoreSoak

namespace Worker

lemma Moved.index {p : Plan} {w w' : Worker} (h : Moved p w w') : w'.index = w.index := by
  cases h with
  | release go => rw [Worker.release]; split <;> (try split) <;> rfl
  | check shutdown => rw [Worker.check]; split <;> (try split) <;> (try split) <;> rfl
  | issue now => rw [Worker.issue]; split <;> rfl
  | receive now reply _ =>
      -- wherever a reply leads, the index stays
      have hproceed (v : Worker) (k : ℕ) : (v.proceed p k now).1.index = v.index := by
        rw [proceed]
        split
        · split <;> rfl
        · rfl
      have haccept (v : Worker) (k : ℕ) (a : Option Bool) :
          (v.accept p k now a).1.index = v.index := by
        rw [accept]
        split
        · split
          · rfl
          · exact hproceed v k
        · exact hproceed v k
      rw [Worker.receive]
      split
      · cases reply with
        | crashed payload => rfl
        | failed source => rfl
        | answered a =>
            dsimp only
            split
            · rfl
            · exact haccept _ _ _
      · rfl
  | resume => rw [Worker.resume]; split <;> rfl
  | interrupt => rw [Worker.interrupt]; split <;> rfl
  | finish => rw [Worker.finish]; split <;> rfl

end Worker

namespace Signals

lemma start_eq (s : Signals) : s.start = { s with fired := s.fired || s.lifecycle } := by
  obtain ⟨fired, shutdown, lifecycle, handle⟩ := s
  cases lifecycle <;> simp [start]

lemma cancel_eq (s : Signals) :
    s.cancel = { s with shutdown := s.shutdown || s.lifecycle || s.handle } := by
  obtain ⟨fired, shutdown, lifecycle, handle⟩ := s
  cases lifecycle <;> cases handle <;> simp [cancel]

/-- Where the start can still be signalled, or has been, and no shutdown is, the answer to a worker
that waits for its start is to go ahead. -/
lemma go_of_started {s : Signals} (hstart : s.fired = true ∨ s.lifecycle = true)
    (hshutdown : s.shutdown = false) {go : Bool} (hgo : s.started = some go) : go = true := by
  rw [started, hshutdown] at hgo
  simp only [ready, outcome, waitStart, waitShutdown, Wait.of, hshutdown] at hgo
  cases hfired : s.fired with
  | true => simpa [hfired] using hgo.symm
  | false =>
      have hlifecycle : s.lifecycle = true := by simpa [hfired] using hstart
      simp [hfired, hlifecycle] at hgo

end Signals

namespace Pool

variable {σ : Type}

/-! ### The parts of a pool after a move -/

section Parts

variable (p : Pool σ) (i : ℕ) (r : Worker × List Notice) (w : Worker) (e : Exit)

@[simp] lemma put_plan : (p.put i r).plan = p.plan := rfl
@[simp] lemma put_policy : (p.put i r).policy = p.policy := rfl
@[simp] lemma put_signals : (p.put i r).signals = p.signals := rfl
@[simp] lemma put_store : (p.put i r).store = p.store := rfl
@[simp] lemma put_now : (p.put i r).now = p.now := rfl

lemma put_workers : (p.put i r).workers = p.workers.setIfInBounds i r.1 := rfl

lemma requestShutdown_eq :
    p.requestShutdown = { p with
      signals := if p.signals.shutdown then p.signals else p.signals.cancel
      notices := if p.signals.shutdown then p.notices else .shutdownRequested :: p.notices } := by
  rw [requestShutdown]
  split <;> rfl

@[simp] lemma requestShutdown_plan : p.requestShutdown.plan = p.plan := by
  rw [requestShutdown_eq]

@[simp] lemma requestShutdown_policy : p.requestShutdown.policy = p.policy := by
  rw [requestShutdown_eq]

@[simp] lemma requestShutdown_workers : p.requestShutdown.workers = p.workers := by
  rw [requestShutdown_eq]

@[simp] lemma requestShutdown_store : p.requestShutdown.store = p.store := by
  rw [requestShutdown_eq]

@[simp] lemma requestShutdown_now : p.requestShutdown.now = p.now := by
  rw [requestShutdown_eq]

lemma requestShutdown_isOver : p.requestShutdown.isOver = p.isOver := by
  rw [isOver, requestShutdown_workers, isOver]

lemma requestShutdown_signals :
    p.requestShutdown.signals = { p.signals with
      shutdown := p.signals.shutdown || p.signals.lifecycle || p.signals.handle } := by
  rw [requestShutdown_eq]
  dsimp only
  split
  · rename_i h
    rw [h, Bool.true_or, Bool.true_or, ← h]
  · exact p.signals.cancel_eq

/-- As long as the lifecycle exists a request for shutdown is heard. -/
lemma requestShutdown_shutdown (h : p.signals.lifecycle = true) :
    p.requestShutdown.signals.shutdown = true := by
  simp [requestShutdown_signals, h]

/-- A retiring worker asks the others to stop only with a failure and under the abort policy. -/
lemma retire_eq : p.retire i w e =
    (if (e.failure? w.index).isSome && p.policy = .abort then
      (p.note (.aborting w.index)).requestShutdown else p).put i w.finish := rfl

@[simp] lemma retire_plan : (p.retire i w e).plan = p.plan := by
  rw [retire_eq]
  split <;> simp [note]

@[simp] lemma retire_policy : (p.retire i w e).policy = p.policy := by
  rw [retire_eq]
  split <;> simp [note]

@[simp] lemma retire_store : (p.retire i w e).store = p.store := by
  rw [retire_eq]
  split <;> simp [note]

@[simp] lemma retire_now : (p.retire i w e).now = p.now := by
  rw [retire_eq]
  split <;> simp [note]

lemma retire_workers : (p.retire i w e).workers = p.workers.setIfInBounds i w.finish.1 := by
  rw [retire_eq]
  split <;> simp [note, put_workers]

end Parts

/-- The workers after one of them was replaced. -/
lemma getElem?_replace {ws : Array Worker} {i : ℕ} {w : Worker} (hw : ws[i]? = some w) (v : Worker)
    (j : ℕ) : (ws.setIfInBounds i v)[j]? = if i = j then some v else ws[j]? := by
  have hi : i < ws.size := (Array.getElem?_eq_some_iff.mp hw).1
  rw [Array.getElem?_setIfInBounds]
  simp only [hi, if_true]

/-- What holds of every worker holds after one was replaced by another of which it holds. -/
lemma forall_replace {ws : Array Worker} {P : Worker → Prop} {i : ℕ} {w v : Worker}
    (hw : ws[i]? = some w) (hv : P v) (h : ∀ {j : ℕ} {u : Worker}, ws[j]? = some u → P u) {j : ℕ}
    {u : Worker} (hu : (ws.setIfInBounds i v)[j]? = some u) : P u := by
  rw [getElem?_replace hw] at hu
  split at hu
  · cases hu
    exact hv
  · exact h hu

/-! ### The rules -/

/-- What can happen to a pool. -/
inductive Stepped (db : Database σ) (p : Pool σ) : Event → Pool σ → Prop where
  | tick (d : ℕ) : Stepped db p (.tick d) { p with now := p.now + d }
  | start : Stepped db p .start { p with signals := p.signals.start }
  | cancel : Stepped db p .cancel p.requestShutdown
  | dropLifecycle : Stepped db p .dropLifecycle { p with signals := p.signals.dropLifecycle }
  /-- The worker is not there, or it waits. -/
  | idle (e : Event) : Stepped db p e p
  | release {i : ℕ} {w : Worker} {go : Bool} (hw : p.workers[i]? = some w) (hs : w.stage = .parked)
      (hgo : p.signals.started = some go) : Stepped db p (.turn i) (p.put i (w.release go))
  | check {i k : ℕ} {w : Worker} (hw : p.workers[i]? = some w) (hs : w.stage = .looping k) :
      Stepped db p (.turn i) (p.put i (w.check p.plan p.signals.shutdown))
  | issue {i k : ℕ} {w : Worker} (hw : p.workers[i]? = some w) (hs : w.stage = .cleared k) :
      Stepped db p (.turn i) (p.put i (w.issue p.plan p.now))
  /-- The call takes effect and comes back. -/
  | receive {i k since : ℕ} {f : Flags} {w : Worker} (hw : p.workers[i]? = some w)
      (hs : w.stage = .calling k f since) {r : Reply (Option Bool) × σ}
      (hr : (p.plan.request k f).perform db ⟨w.index, k⟩ p.store = r) :
      Stepped db p (.turn i) ({ p with store := r.2 }.put i (w.receive p.plan p.now r.1))
  | resume {i k wake : ℕ} {w : Worker} (hw : p.workers[i]? = some w)
      (hs : w.stage = .pausing k wake) (hwake : wake ≤ p.now) :
      Stepped db p (.turn i) (p.put i w.resume)
  | retire {i : ℕ} {w : Worker} {e : Exit} (hw : p.workers[i]? = some w)
      (hs : w.stage = .leaving e) : Stepped db p (.turn i) (p.retire i w e)
  | interrupt {i : ℕ} {w : Worker} (hw : p.workers[i]? = some w)
      (hshutdown : p.signals.shutdown = true) : Stepped db p (.interrupt i) (p.put i w.interrupt)

/-- Every event follows one of the rules. -/
theorem stepped (db : Database σ) (p : Pool σ) (e : Event) : Stepped db p e (p.step db e) := by
  cases e with
  | tick d => exact .tick d
  | start => exact .start
  | cancel => exact .cancel
  | dropLifecycle => exact .dropLifecycle
  | turn i =>
      rw [step]
      cases hw : p.workers[i]? with
      | none => exact .idle _
      | some w =>
          simp only [turn]
          split
          · rename_i hs
            split
            · exact .idle _
            · rename_i go hgo
              exact .release hw hs hgo
          · rename_i k hs
            exact .check hw hs
          · rename_i k hs
            exact .issue hw hs
          · rename_i k f since hs
            exact .receive hw hs rfl
          · rename_i k wake hs
            split
            · rename_i hwake
              exact .resume hw hs hwake
            · exact .idle _
          · rename_i e hs
            exact .retire hw hs
          · exact .idle _
  | interrupt i =>
      rw [step]
      cases hw : p.workers[i]? with
      | none => exact .idle _
      | some w =>
          simp only [interrupt]
          split
          · rename_i hshutdown
            exact .interrupt hw hshutdown
          · exact .idle _

/-- The worker at the given place leaves with a failure under the abort policy. -/
structure Aborts (p : Pool σ) (i : ℕ) (w : Worker) (x : Exit) : Prop where
  worker : p.workers[i]? = some w
  stage : w.stage = .leaving x
  failure : (x.failure? w.index).isSome = true
  policy : p.policy = .abort

section Stepped

variable {db : Database σ} {p p' : Pool σ} {e : Event}

lemma Stepped.plan (h : Stepped db p e p') : p'.plan = p.plan := by
  cases h <;> simp

lemma Stepped.policy (h : Stepped db p e p') : p'.policy = p.policy := by
  cases h <;> simp

/-- After an event each worker is the same as before or has had its turn. -/
theorem Stepped.turned (h : Stepped db p e p') {j : ℕ} {w' : Worker}
    (hw' : p'.workers[j]? = some w') :
    ∃ w, p.workers[j]? = some w ∧ (w' = w ∨ w.Turned p.plan p.signals p.now w') := by
  -- a step replaces one worker at most
  have hreplace {i : ℕ} {w v : Worker} (hw : p.workers[i]? = some w)
      (hv : v = w ∨ w.Turned p.plan p.signals p.now v)
      (hj : (p.workers.setIfInBounds i v)[j]? = some w') :
      ∃ w, p.workers[j]? = some w ∧ (w' = w ∨ w.Turned p.plan p.signals p.now w') := by
    rw [getElem?_replace hw] at hj
    split at hj
    · rename_i hij
      cases hj
      exact ⟨w, hij ▸ hw, hv⟩
    · exact ⟨w', hj, .inl rfl⟩
  cases h with
  | tick d => exact ⟨w', hw', .inl rfl⟩
  | start => exact ⟨w', hw', .inl rfl⟩
  | cancel =>
      rw [requestShutdown_workers] at hw'
      exact ⟨w', hw', .inl rfl⟩
  | dropLifecycle => exact ⟨w', hw', .inl rfl⟩
  | idle => exact ⟨w', hw', .inl rfl⟩
  | release hw hs hgo => exact hreplace hw (.inr (.release hs hgo)) hw'
  | check hw hs => exact hreplace hw (.inr (.check hs)) hw'
  | issue hw hs => exact hreplace hw (.inr (.issue hs)) hw'
  | receive hw hs hr =>
      refine hreplace hw (.inr (.receive hs ?_)) hw'
      rw [← hr]
      exact Request.admits_perform _ _ _ _
  | resume hw hs hwake => exact hreplace hw (.inr (.resume hs)) hw'
  | retire hw hs =>
      rw [retire_workers] at hw'
      exact hreplace hw (.inr (.finish hs)) hw'
  | @interrupt i w hw hshutdown =>
      refine hreplace hw ?_ hw'
      cases hs : w.stage with
      | pausing k wake => exact .inr (.interrupt hs hshutdown)
      | _ =>
          rw [Worker.interrupt, hs]
          exact .inl rfl

/-- After an event each worker is the same as before or has made one of its moves. -/
theorem Stepped.worker (h : Stepped db p e p') {j : ℕ} {w' : Worker}
    (hw' : p'.workers[j]? = some w') :
    ∃ w, p.workers[j]? = some w ∧ (w' = w ∨ Worker.Moved p.plan w w') := by
  obtain ⟨w, hw, hsame | ht⟩ := h.turned hw'
  · exact ⟨w, hw, .inl hsame⟩
  · exact ⟨w, hw, .inr ht.moved⟩

/-- An event neither adds workers nor takes any away. -/
lemma Stepped.size (h : Stepped db p e p') : p'.workers.size = p.workers.size := by
  cases h <;> simp [put_workers, retire_workers]

/-- In a pool that is over each worker is gone. -/
lemma stage_of_isOver (h : p.isOver = true) {i : ℕ} {w : Worker} (hw : p.workers[i]? = some w) :
    ∃ e, w.stage = .gone e := by
  have hgone : w.isGone = true := Array.all_eq_true'.mp h w (Array.mem_of_getElem? hw)
  rw [Worker.isGone] at hgone
  split at hgone
  · rename_i e hs
    exact ⟨e, hs⟩
  · exact absurd hgone Bool.false_ne_true

/-- A pool that is over stays as it is, but for its clock, its signals and its notices. -/
theorem Stepped.of_isOver (h : Stepped db p e p') (hover : p.isOver = true) :
    p'.workers = p.workers ∧ p'.store = p.store := by
  -- no rule but the interruption is for a worker that is gone
  have hmoves {i : ℕ} {w : Worker} (hw : p.workers[i]? = some w) (hs : ∀ e, w.stage ≠ .gone e) :
      p'.workers = p.workers ∧ p'.store = p.store := by
    obtain ⟨e, he⟩ := stage_of_isOver hover hw
    exact absurd he (hs e)
  cases h with
  | tick d => exact ⟨rfl, rfl⟩
  | start => exact ⟨rfl, rfl⟩
  | cancel => exact ⟨requestShutdown_workers p, requestShutdown_store p⟩
  | dropLifecycle => exact ⟨rfl, rfl⟩
  | idle => exact ⟨rfl, rfl⟩
  | release hw hs _ => exact hmoves hw fun e he => by rw [hs] at he; cases he
  | check hw hs => exact hmoves hw fun e he => by rw [hs] at he; cases he
  | issue hw hs => exact hmoves hw fun e he => by rw [hs] at he; cases he
  | receive hw hs _ => exact hmoves hw fun e he => by rw [hs] at he; cases he
  | resume hw hs _ => exact hmoves hw fun e he => by rw [hs] at he; cases he
  | retire hw hs => exact hmoves hw fun e he => by rw [hs] at he; cases he
  | @interrupt i w hw _ =>
      obtain ⟨e, he⟩ := stage_of_isOver hover hw
      refine ⟨?_, rfl⟩
      rw [put_workers, Worker.interrupt, he]
      refine Array.ext_getElem? fun j => ?_
      rw [getElem?_replace hw]
      split
      · rename_i hij
        exact (hij ▸ hw).symm
      · rfl

/-- The shutdown is asked for from outside, or by a worker that leaves with a failure under the
abort policy. -/
lemma Stepped.signals (h : Stepped db p e p') :
    p'.signals = p.signals ∨ p'.signals = p.signals.start ∨
      (e = .dropLifecycle ∧ p'.signals = p.signals.dropLifecycle) ∨
      p'.signals = p.requestShutdown.signals ∧
        (e = .cancel ∨ ∃ i w x, p.Aborts i w x ∧ p' = p.retire i w x) := by
  cases h with
  | start => exact .inr (.inl rfl)
  | dropLifecycle => exact .inr (.inr (.inl ⟨rfl, rfl⟩))
  | cancel => exact .inr (.inr (.inr ⟨rfl, .inl rfl⟩))
  -- only a worker that fails under the abort policy raises the shutdown when it leaves
  | @retire i w x hw hs =>
      rw [retire_eq, put_signals]
      split
      · rename_i h
        rw [Bool.and_eq_true, decide_eq_true_eq] at h
        refine .inr (.inr (.inr ⟨?_, .inr ⟨i, w, x, ⟨hw, hs, h.1, h.2⟩, ?_⟩⟩))
        · rw [requestShutdown_signals, requestShutdown_signals]
          rfl
        · rw [retire_eq, if_pos (by simp [h])]
      · exact .inl rfl
  | _ => exact .inl rfl

/-- Signals that are raised stay raised. -/
structure Raised (a b : Signals) : Prop where
  lifecycle : a.lifecycle = true → b.lifecycle = true
  fired : a.fired = true → b.fired = true
  shutdown : a.shutdown = true → b.shutdown = true

lemma Raised.requestShutdown (p : Pool σ) : Raised p.signals p.requestShutdown.signals := by
  rw [requestShutdown_signals]
  exact ⟨id, id, fun h => by simp [h]⟩

/-- An event in the pool lowers no signal; it is no loss of the lifecycle. -/
lemma Raised.stepped (hs : Stepped db p e p') (he : e ≠ .dropLifecycle) :
    Raised p.signals p'.signals := by
  rcases hs.signals with h | h | ⟨hdrop, -⟩ | ⟨h, -⟩
  · rw [h]
    exact ⟨id, id, id⟩
  · rw [h, Signals.start_eq]
    exact ⟨id, fun hfired => by simp [hfired], id⟩
  · exact absurd hdrop he
  · rw [h]
    exact .requestShutdown p

end Stepped

/-! ### Runs -/

@[simp] lemma run_nil (db : Database σ) (p : Pool σ) : p.run db [] = p := rfl

@[simp] lemma run_cons (db : Database σ) (p : Pool σ) (e : Event) (events : List Event) :
    p.run db (e :: events) = (p.step db e).run db events := rfl

/-- What holds at first and is kept by the rule of each event holds after a run. -/
theorem run_induction_of_mem {db : Database σ} {P : Pool σ → Prop} {events : List Event}
    (hstep : ∀ {p p' : Pool σ} {e : Event}, e ∈ events → P p → Stepped db p e p' → P p')
    {p : Pool σ} (h : P p) : P (p.run db events) := by
  induction events generalizing p with
  | nil => exact h
  | cons e events ih =>
      have hfirst : P (p.step db e) := hstep List.mem_cons_self h (stepped db p e)
      exact ih (fun he => hstep (List.mem_cons_of_mem _ he)) hfirst

/-- What holds at first and is kept by every rule holds after every run. -/
theorem run_induction {db : Database σ} {P : Pool σ → Prop}
    (hstep : ∀ {p p' : Pool σ} {e : Event}, P p → Stepped db p e p' → P p') {p : Pool σ} (h : P p)
    (events : List Event) : P (p.run db events) :=
  run_induction_of_mem (fun _ => hstep) h

/-- The invariant of a pool that was launched under a plan. -/
structure Launched (plan : Plan) (entropy : ℕ → Generator) (p : Pool σ) : Prop where
  plan_eq : p.plan = plan
  index : ∀ {i : ℕ} {w : Worker}, p.workers[i]? = some w → w.index = i
  sound : ∀ {i : ℕ} {w : Worker}, p.workers[i]? = some w →
    w.Sound plan (plan.generator entropy i)

lemma launch_workers (plan : Plan) (policy : FailurePolicy) (count : ℕ) (entropy : ℕ → Generator)
    (store : σ) {i : ℕ} {w : Worker}
    (hw : (launch plan policy count entropy store).workers[i]? = some w) :
    i < count ∧ w = Worker.launch plan entropy i := by
  have hw' : ((Array.range count).map (Worker.launch plan entropy))[i]? = some w := hw
  rw [Array.getElem?_map, Array.getElem?_range] at hw'
  split at hw'
  · rename_i hi
    exact ⟨hi, (Option.some.inj hw').symm⟩
  · exact absurd hw' (by simp)

lemma Launched.launch (plan : Plan) (policy : FailurePolicy) (count : ℕ) (entropy : ℕ → Generator)
    (store : σ) : Launched plan entropy (launch plan policy count entropy store) := by
  refine ⟨rfl, ?_, ?_⟩
  · intro i w hw
    rw [(launch_workers plan policy count entropy store hw).2]
    rfl
  · intro i w hw
    rw [(launch_workers plan policy count entropy store hw).2]
    exact .launch plan entropy i

lemma Launched.stepped {plan : Plan} {entropy : ℕ → Generator} {db : Database σ} {p p' : Pool σ}
    {e : Event} (h : Launched plan entropy p) (hs : Stepped db p e p') :
    Launched plan entropy p' := by
  refine ⟨hs.plan.trans h.plan_eq, ?_, ?_⟩
  · intro j w' hw'
    obtain ⟨w, hw, rfl | hm⟩ := hs.worker hw'
    · exact h.index hw
    · rw [hm.index]
      exact h.index hw
  · intro j w' hw'
    obtain ⟨w, hw, rfl | hm⟩ := hs.worker hw'
    · exact h.sound hw
    · rw [h.plan_eq] at hm
      exact (h.sound hw).moved hm

end Pool

end StoreSoak
