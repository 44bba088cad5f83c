import StoreSoak.Proofs.Pool.Steps
import StoreSoak.Proofs.Worker.Moves

/-!
Every pool comes to its end.

* `movesLeft` adds up the moves that are left to the workers, `pending` the time for which they have
  waited for answers, and `latency` the times after which answers came in the course of a run.
* `Started`: the invariant of a pool whose workers have been released.
* `exists_over`: a started pool can be brought to its end by turns of its workers and the time that
  their pauses take, and nobody waits any longer for an answer meanwhile.
-/

namespace StoreSoak

namespace Pool

variable {σ : Type}

/-! ### Sums over the workers -/

/-- The sum of a number over the workers. -/
def total (f : Worker → ℕ) (p : Pool σ) : ℕ :=
  (p.workers.toList.map f).sum

/-- Where one worker is replaced, the sum changes by that one. -/
lemma sum_replace {ws : Array Worker} {i : ℕ} {w : Worker} (hw : ws[i]? = some w) (v : Worker)
    (f : Worker → ℕ) :
    ((ws.setIfInBounds i v).toList.map f).sum + f w = (ws.toList.map f).sum + f v := by
  rw [Array.toList_setIfInBounds]
  rw [← Array.getElem?_toList] at hw
  -- by induction on the row of workers, up to the place
  generalize ws.toList = l at hw
  induction l generalizing i with
  | nil => cases hw
  | cons u l ih =>
      cases i with
      | zero =>
          cases hw
          simp only [List.set_cons_zero, List.map_cons, List.sum_cons]
          omega
      | succ i =>
          have hrest := ih hw
          simp only [List.set_cons_succ, List.map_cons, List.sum_cons]
          omega

/-- A summand is at most the sum. -/
lemma le_total (f : Worker → ℕ) {p : Pool σ} {i : ℕ} {w : Worker} (hw : p.workers[i]? = some w) :
    f w ≤ p.total f := by
  have hmem : w ∈ p.workers.toList := Array.mem_toList_iff.mpr (Array.mem_of_getElem? hw)
  exact List.single_le_sum (by simp) _ (List.mem_map_of_mem hmem)

/-- The moves that are left to the workers together. -/
def movesLeft (p : Pool σ) : ℕ :=
  p.total (Worker.movesLeft p.plan)

/-- The time for which the workers have waited for answers to calls under way. -/
def pending (p : Pool σ) : ℕ :=
  p.total (Worker.waiting p.now)

/-- The time for which a worker has waited that gets its answer by an event. -/
def latencyOf (p : Pool σ) : Event → ℕ
  | .turn i =>
    match p.workers[i]? with
    | none => 0
    | some w => w.waiting p.now
  | _ => 0

/-- The times after which answers came in, all together. -/
def latency (db : Database σ) (p : Pool σ) : List Event → ℕ
  | [] => 0
  | e :: events => p.latencyOf e + (p.step db e).latency db events

lemma run_append (db : Database σ) (p : Pool σ) (before after : List Event) :
    p.run db (before ++ after) = (p.run db before).run db after := by
  rw [run, run, run, List.foldl_append]

/-! ### Progress -/

/-- A pool under way: its workers know whether to start, and each of them is sound. -/
structure Started (p : Pool σ) : Prop where
  started : p.signals.started ≠ none
  sound : ∀ {i : ℕ} {w : Worker}, p.workers[i]? = some w → ∃ g, w.Sound p.plan g

/-- Whoever knows whether to start still knows it after a shutdown. -/
lemma started_cancel {s : Signals} (h : s.started ≠ none) : s.cancel.started ≠ none := by
  rw [Signals.cancel]
  split
  · simp [Signals.started]
  · exact h

lemma started_requestShutdown {p : Pool σ} (h : p.signals.started ≠ none) :
    p.requestShutdown.signals.started ≠ none := by
  rw [requestShutdown_eq]
  dsimp only
  split
  · exact h
  · exact started_cancel h

section Turn

variable {db : Database σ} {p p' : Pool σ} {i : ℕ} {w v : Worker}

/-- A replaced worker has fewer moves left, and it has got the answer for which it waited. -/
lemma progress_of_replace (hw : p.workers[i]? = some w)
    (hv : v.movesLeft p.plan < w.movesLeft p.plan ∧ v.waiting p.now = 0)
    (hworkers : p'.workers = p.workers.setIfInBounds i v) (hplan : p'.plan = p.plan)
    (hnow : p'.now = p.now) :
    p'.movesLeft < p.movesLeft ∧ p.latencyOf (.turn i) + p'.pending = p.pending := by
  have hlatency : p.latencyOf (.turn i) = w.waiting p.now := by rw [latencyOf, hw]
  have hmoves := sum_replace hw v (Worker.movesLeft p.plan)
  have hwaits := sum_replace hw v (Worker.waiting p.now)
  rw [hlatency, movesLeft, movesLeft, pending, pending, total, total, total, total, hworkers, hplan,
    hnow]
  omega

/-- A worker that has nothing to wait for makes a move at its turn. -/
lemma Started.turn (db : Database σ) (h : Started p) (hw : p.workers[i]? = some w)
    (hgone : ∀ e, w.stage ≠ .gone e)
    (hwake : ∀ k wake, w.stage = .pausing k wake → wake ≤ p.now) :
    (p.step db (.turn i)).movesLeft < p.movesLeft ∧
      p.latencyOf (.turn i) + (p.step db (.turn i)).pending = p.pending := by
  obtain ⟨g, hsound⟩ := h.sound hw
  rw [step, hw]
  dsimp only
  rw [Pool.turn]
  cases hs : w.stage with
  | parked =>
      cases hgo : p.signals.started with
      | none => exact absurd hgo h.started
      | some go =>
          obtain ⟨hmoves, hwaits⟩ := Worker.movesLeft_release (p := p.plan) hs go
          exact progress_of_replace hw ⟨hmoves, hwaits p.now⟩ rfl rfl rfl
  | looping k =>
      obtain ⟨hmoves, hwaits⟩ := Worker.movesLeft_check (p := p.plan) hs p.signals.shutdown
      exact progress_of_replace hw ⟨hmoves, hwaits p.now⟩ rfl rfl rfl
  | cleared k => exact progress_of_replace hw (Worker.movesLeft_issue hs p.now) rfl rfl rfl
  | calling k f since =>
      exact progress_of_replace hw (Worker.movesLeft_receive hsound hs p.now _) rfl rfl rfl
  | pausing k wake =>
      obtain ⟨hmoves, hwaits⟩ := Worker.movesLeft_resume hsound hs
      dsimp only
      rw [if_pos (hwake k wake hs)]
      exact progress_of_replace hw ⟨hmoves, hwaits p.now⟩ rfl rfl rfl
  | leaving e =>
      obtain ⟨hmoves, hwaits⟩ := Worker.movesLeft_finish (p := p.plan) hs
      exact progress_of_replace hw ⟨hmoves, hwaits p.now⟩ (retire_workers ..) (retire_plan ..)
        (retire_now ..)
  | gone e => exact absurd hs (hgone e)

/-- A pool under way stays so. -/
lemma Started.stepped (h : Started p) {e : Event} (he : (∃ i, e = .turn i) ∨ ∃ d, e = .tick d)
    (hs : Stepped db p e p') : Started p' := by
  refine ⟨?_, ?_⟩
  · rcases he with ⟨i, rfl⟩ | ⟨d, rfl⟩
    · cases hs with
      | @retire w e hw hs =>
          rw [retire_eq, put_signals]
          split
          · exact started_requestShutdown h.started
          · exact h.started
      | _ => exact h.started
    · cases hs <;> exact h.started
  · intro j w' hw'
    obtain ⟨w, hw, rfl | hm⟩ := hs.worker hw'
    · rw [hs.plan]
      exact h.sound hw
    · obtain ⟨g, hg⟩ := h.sound hw
      rw [hs.plan]
      exact ⟨g, hg.moved hm⟩

end Turn

/-- Where nobody waits for an answer, nothing is pending. -/
lemma pending_eq_zero {p : Pool σ}
    (h : ∀ {i : ℕ} {w : Worker}, p.workers[i]? = some w → w.waiting p.now = 0) : p.pending = 0 := by
  rw [pending, total, List.sum_eq_zero_iff]
  intro n hn
  obtain ⟨w, hw, rfl⟩ := List.mem_map.mp hn
  obtain ⟨i, hi⟩ := List.getElem?_of_mem hw
  rw [Array.getElem?_toList] at hi
  exact h hi

/-- Once all workers are gone nothing is pending. -/
lemma pending_of_isOver {p : Pool σ} (hover : p.isOver = true) : p.pending = 0 := by
  refine pending_eq_zero fun {i w} hw => ?_
  obtain ⟨e, he⟩ := stage_of_isOver hover hw
  rw [Worker.waiting, he]

/-- In a pool that is not over somebody is still there. -/
lemma exists_present {p : Pool σ} (hover : p.isOver ≠ true) :
    ∃ (i : ℕ) (w : Worker), p.workers[i]? = some w ∧ ∀ e, w.stage ≠ .gone e := by
  by_contra hnone
  refine hover (Array.all_eq_true'.mpr fun w hmem => ?_)
  obtain ⟨i, hi⟩ := Array.getElem?_of_mem hmem
  by_contra hgone
  refine hnone ⟨i, w, hi, fun e he => hgone ?_⟩
  rw [Worker.isGone, he]

/-- In a pool that is not over some worker can go on, at once or after some time; and if time has to
go by first, nobody waits for an answer. -/
lemma exists_ready (db : Database σ) {p : Pool σ} (hover : p.isOver ≠ true) :
    ∃ (d i : ℕ) (w : Worker), p.workers[i]? = some w ∧ (∀ e, w.stage ≠ .gone e) ∧
      (∀ k wake, w.stage = .pausing k wake → wake ≤ p.now + d) ∧
      (p.step db (.tick d)).pending = p.pending := by
  by_cases hready : ∃ (i : ℕ) (w : Worker), p.workers[i]? = some w ∧ (∀ e, w.stage ≠ .gone e) ∧
      ∀ k wake, w.stage ≠ .pausing k wake
  · obtain ⟨i, w, hw, hgone, hpausing⟩ := hready
    exact ⟨0, i, w, hw, hgone, fun k wake hs => absurd hs (hpausing k wake), rfl⟩
  -- every worker is gone or pauses: the clock goes on to the end of a pause
  have hstage {i : ℕ} {w : Worker} (hw : p.workers[i]? = some w) :
      (∃ e, w.stage = .gone e) ∨ ∃ k wake, w.stage = .pausing k wake := by
    by_contra hnone
    rw [not_or] at hnone
    exact hready ⟨i, w, hw, not_exists.mp hnone.1, fun k wake hs => hnone.2 ⟨k, wake, hs⟩⟩
  have hwaiting (now : ℕ) {i : ℕ} {w : Worker} (hw : p.workers[i]? = some w) :
      w.waiting now = 0 := by
    rcases hstage hw with ⟨e, he⟩ | ⟨k, wake, he⟩ <;> rw [Worker.waiting, he]
  obtain ⟨i, w, hw, hgone⟩ := exists_present hover
  obtain ⟨k, wake, hs⟩ : ∃ k wake, w.stage = .pausing k wake :=
    (hstage hw).resolve_left (not_exists.mpr hgone)
  refine ⟨wake - p.now, i, w, hw, hgone, ?_, ?_⟩
  · intro k' wake' hs'
    rw [hs] at hs'
    cases hs'
    omega
  · have hticked : (p.step db (.tick (wake - p.now))).pending = 0 :=
      pending_eq_zero fun hw => hwaiting _ hw
    rw [hticked, pending_eq_zero fun hw => hwaiting _ hw]

/-- **A pool under way can be brought to its end**, and no longer latency comes about than there
is. -/
theorem exists_over (db : Database σ) {p : Pool σ} (h : Started p) :
    ∃ events, (∀ e ∈ events, (∃ i, e = .turn i) ∨ ∃ d, e = .tick d) ∧
      (p.run db events).isOver = true ∧ p.latency db events = p.pending := by
  -- the moves that are left to the workers grow fewer with every turn
  induction hn : p.movesLeft using Nat.strongRecOn generalizing p with
  | ind n ih =>
      subst hn
      by_cases hover : p.isOver = true
      · exact ⟨[], by simp, hover, (pending_of_isOver hover).symm⟩
      obtain ⟨d, i, w, hw, hgone, hwake, hsame⟩ := exists_ready db hover
      have hticked := h.stepped (.inr ⟨d, rfl⟩) (stepped db p (.tick d))
      obtain ⟨hmoves, hpending⟩ := hticked.turn db (w := w) hw hgone hwake
      have hturned := hticked.stepped (.inl ⟨i, rfl⟩) (stepped db _ (.turn i))
      obtain ⟨events, hevents, hend, hlatency⟩ := ih _ hmoves hturned rfl
      refine ⟨.tick d :: .turn i :: events, ?_, hend, ?_⟩
      · intro e he
        rcases List.mem_cons.mp he with rfl | he
        · exact .inr ⟨d, rfl⟩
        · rcases List.mem_cons.mp he with rfl | he
          · exact .inl ⟨i, rfl⟩
          · exact hevents e he
      · calc
          p.latency db (.tick d :: .turn i :: events)
            = 0 + ((p.step db (.tick d)).latencyOf (.turn i) +
                ((p.step db (.tick d)).step db (.turn i)).latency db events) := rfl
          _ = (p.step db (.tick d)).latencyOf (.turn i) +
                ((p.step db (.tick d)).step db (.turn i)).pending := by rw [hlatency, Nat.zero_add]
          _ = p.pending := by rw [hpending, hsame]

end Pool

end StoreSoak
