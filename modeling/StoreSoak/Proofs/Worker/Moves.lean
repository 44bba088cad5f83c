import StoreSoak.Proofs.Measure.Totals
import StoreSoak.Proofs.Worker.History

/-!
Where the moves of a worker lead.

* `AfterCall` lists how a worker can stand after its call came back, and `receive_stage` says that
  it does.
* `receive_answered`: the worker after an answer, where the tally has room for the iteration.
* `movesLeft` bounds the moves that are left to a worker, and every move takes one off.
* `waiting` is the time for which a worker has waited for its answer.
-/

namespace StoreSoak

namespace Worker

variable {p : Plan} {g : Generator} {w : Worker} {k : ℕ}

/-! ### Beside the calls -/

lemma release_tally (w : Worker) (go : Bool) : (w.release go).1.tally = w.tally := by
  rw [release]
  split
  · split <;> rfl
  · rfl

lemma check_tally (p : Plan) (w : Worker) (shutdown : Bool) :
    (w.check p shutdown).1.tally = w.tally := by
  rw [check]
  split
  · split
    · rfl
    · split <;> rfl
  · rfl

lemma issue_tally (p : Plan) (w : Worker) (now : ℕ) : (w.issue p now).1.tally = w.tally := by
  rw [issue]
  split <;> rfl

lemma resume_tally (w : Worker) : w.resume.1.tally = w.tally := by
  rw [resume]
  split <;> rfl

lemma finish_tally (w : Worker) : w.finish.1.tally = w.tally := by
  rw [finish]
  split <;> rfl

/-! ### After a call -/

/-- How a worker stands after its call came back: it has failed, or it pauses after every multiple
of the interval, and only then. -/
def AfterCall (p : Plan) (k now : ℕ) (w : Worker) : Prop :=
  (∃ e, w.stage = .leaving e ∧ ∀ i, e.failure? i ≠ none) ∨
    (Plan.throttles p.throttleInterval k = true ∧
      w.stage = .pausing k (now + p.throttlePause.waited)) ∨
    (Plan.throttles p.throttleInterval k = false ∧ w.stage = .looping (k + 1))

lemma proceed_stage (p : Plan) (w : Worker) (k now : ℕ) :
    AfterCall p k now (w.proceed p k now).1 := by
  rw [proceed]
  cases hth : Plan.throttles p.throttleInterval k with
  | false => exact .inr (.inr ⟨hth, rfl⟩)
  | true =>
      rw [if_pos rfl]
      split
      · exact .inl ⟨_, rfl, fun _ => Option.some_ne_none _⟩
      · exact .inr (.inl ⟨hth, rfl⟩)

/-- After its call came back a worker leaves, pauses, or goes on with the next iteration. -/
lemma receive_stage {f : Flags} {since : ℕ} (hs : w.stage = .calling k f since) (now : ℕ)
    (reply : Reply (Option Bool)) : AfterCall p k now (w.receive p now reply).1 := by
  simp only [receive, hs]
  cases reply with
  | crashed payload => exact .inl ⟨_, rfl, fun _ => Option.some_ne_none _⟩
  | failed source => exact .inl ⟨_, rfl, fun _ => Option.some_ne_none _⟩
  | answered a =>
      dsimp only
      split
      · exact .inl ⟨_, rfl, fun _ => Option.some_ne_none _⟩
      · rw [accept]
        split
        · split
          · exact .inl ⟨_, rfl, fun _ => Option.some_ne_none _⟩
          · exact proceed_stage p _ k now
        · exact proceed_stage p _ k now

/-- Whether an answer holds a worker up for good: a strict plan takes an aborted transaction for a
failure. -/
def HeldUp (p : Plan) (a : Option Bool) : Prop :=
  a = some false ∧ p.strictGuard = true

instance (p : Plan) (a : Option Bool) : Decidable (HeldUp p a) := by
  unfold HeldUp; infer_instance

/-- The stage of a worker after an answer. -/
def stageAfter (p : Plan) (index k now : ℕ) (a : Option Bool) : Stage :=
  if HeldUp p a then .leaving (.failed (.guarded index k))
  else if Plan.throttles p.throttleInterval k then .pausing k (now + p.throttlePause.waited)
  else .looping (k + 1)

/-- The totals of a worker after an answer. -/
def totalsAfter (p : Plan) (w : Worker) (k latency : ℕ) (f : Flags) (a : Option Bool) : Totals :=
  if HeldUp p a ∨ Plan.throttles p.throttleInterval k = false then
    w.tally.totals + Totals.ofSample (sample k f latency a)
  else w.tally.totals + Totals.ofSample (sample k f latency a) + Totals.pause

/-- The worker after an answer, where the tally has room for the iteration and the pause after
it. -/
lemma receive_answered {f : Flags} {since : ℕ} (hs : w.stage = .calling k f since) (now : ℕ)
    (a : Option Bool) (hfits : (totalsAfter p w k (now - since) f a).Fits) :
    ∃ t : Tally, t.totals = totalsAfter p w k (now - since) f a ∧
      (w.receive p now (.answered a)).1 =
        { w.noteReply (.answered a) with tally := t, stage := stageAfter p w.index k now a } := by
  -- the sample fits, since it fits together with the pause that may follow it
  have hsample : (w.tally.totals + Totals.ofSample (sample k f (now - since) a)).Fits := by
    rw [totalsAfter] at hfits
    split at hfits
    · exact hfits
    · exact hfits.of_add
  obtain ⟨t, ht, htotals⟩ := Tally.ofTotals?_of_fits hsample
  have hreceive : (w.receive p now (.answered a)).1 =
      (({ w.noteReply (.answered a) with tally := t } : Worker).accept p k now a).1 := by
    have hconsume : (w.noteReply (.answered a)).tally.consume (sample k f (now - since) a) =
        .ok t := ht
    simp only [receive, hs, hconsume]
  rw [hreceive]
  -- held up, going on at once, or going on after a pause
  by_cases hheld : HeldUp p a
  · refine ⟨t, ?_, ?_⟩
    · rw [htotals, totalsAfter, if_pos (.inl hheld)]
    · rw [accept, if_pos hheld.1, if_pos hheld.2, stageAfter, if_pos hheld]
      rfl
  · have haccept : (({ w.noteReply (.answered a) with tally := t } : Worker).accept p k now a).1 =
        (({ w.noteReply (.answered a) with tally := t } : Worker).proceed p k now).1 := by
      rw [accept]
      split
      · rename_i ha
        rw [if_neg fun hstrict => hheld ⟨ha, hstrict⟩]
      · rfl
    rw [haccept, proceed, stageAfter, if_neg hheld]
    cases hth : Plan.throttles p.throttleInterval k with
    | false =>
        refine ⟨t, ?_, rfl⟩
        rw [htotals, totalsAfter, if_pos (.inr hth)]
    | true =>
        have hneg : ¬ (HeldUp p a ∨ Plan.throttles p.throttleInterval k = false) := by
          rintro (h | h)
          · exact hheld h
          · rw [hth] at h
            cases h
        rw [totalsAfter, if_neg hneg, ← htotals] at hfits
        obtain ⟨u, hu, hutotals⟩ := Tally.ofTotals?_of_fits hfits
        refine ⟨u, ?_, ?_⟩
        · rw [hutotals, totalsAfter, if_neg hneg, htotals]
        · have hpause : ({ w.noteReply (.answered a) with tally := t } : Worker).tally.recordPause =
              .ok u := hu
          simp only [hpause, if_true]

/-! ### The moves that are left -/

/-- So many moves are left to a worker at most, if it waits for nothing. -/
def movesLeft (p : Plan) (w : Worker) : ℕ :=
  match w.stage with
  | .parked => 4 * p.maxIterations + 3
  | .looping k => 4 * (p.maxIterations - k) + 2
  | .cleared k => 4 * (p.maxIterations - k) + 1
  | .calling k _ _ => 4 * (p.maxIterations - k)
  | .pausing k _ => 4 * (p.maxIterations - k) - 1
  | .leaving _ => 1
  | .gone _ => 0

/-- The time for which a worker has waited for the answer to its call. -/
def waiting (now : ℕ) (w : Worker) : ℕ :=
  match w.stage with
  | .calling _ _ since => now - since
  | _ => 0

lemma movesLeft_release (hs : w.stage = .parked) (go : Bool) :
    (w.release go).1.movesLeft p < w.movesLeft p ∧ ∀ now, (w.release go).1.waiting now = 0 := by
  simp only [release, hs, movesLeft]
  cases go with
  | true =>
      refine ⟨?_, fun _ => rfl⟩
      show 4 * (p.maxIterations - 1) + 2 < _
      omega
  | false =>
      refine ⟨?_, fun _ => rfl⟩
      show 1 < _
      omega

lemma movesLeft_check (hs : w.stage = .looping k) (shutdown : Bool) :
    (w.check p shutdown).1.movesLeft p < w.movesLeft p ∧
      ∀ now, (w.check p shutdown).1.waiting now = 0 := by
  have hleft : w.movesLeft p = 4 * (p.maxIterations - k) + 2 := by rw [movesLeft, hs]
  rw [hleft, check, hs]
  by_cases hlast : p.maxIterations ≤ k
  · simp only [if_pos hlast]
    refine ⟨?_, fun _ => rfl⟩
    show 1 < _
    omega
  · simp only [if_neg hlast]
    cases shutdown with
    | true =>
        refine ⟨?_, fun _ => rfl⟩
        show 1 < _
        omega
    | false =>
        refine ⟨?_, fun _ => rfl⟩
        show 4 * (p.maxIterations - k) + 1 < _
        omega

lemma movesLeft_issue (hs : w.stage = .cleared k) (now : ℕ) :
    (w.issue p now).1.movesLeft p < w.movesLeft p ∧ (w.issue p now).1.waiting now = 0 := by
  simp only [issue, hs, movesLeft]
  refine ⟨?_, Nat.sub_self now⟩
  show 4 * (p.maxIterations - k) < _
  omega

lemma movesLeft_receive (h : Sound p g w) {f : Flags} {since : ℕ}
    (hs : w.stage = .calling k f since) (now : ℕ) (reply : Reply (Option Bool)) :
    (w.receive p now reply).1.movesLeft p < w.movesLeft p ∧
      (w.receive p now reply).1.waiting now = 0 := by
  obtain ⟨calls, -, hk, hlast, -⟩ := h.of_calling hs
  rw [Plan.last] at hlast
  simp only [movesLeft, waiting, hs]
  rcases receive_stage (p := p) hs now reply with ⟨e, he, -⟩ | ⟨-, he⟩ | ⟨-, he⟩
  · rw [he]
    refine ⟨?_, rfl⟩
    show 1 < _
    omega
  · rw [he]
    refine ⟨?_, rfl⟩
    show 4 * (p.maxIterations - k) - 1 < _
    omega
  · rw [he]
    refine ⟨?_, rfl⟩
    show 4 * (p.maxIterations - (k + 1)) + 2 < _
    omega

lemma movesLeft_resume (h : Sound p g w) {wake : ℕ} (hs : w.stage = .pausing k wake) :
    w.resume.1.movesLeft p < w.movesLeft p ∧ ∀ now, w.resume.1.waiting now = 0 := by
  obtain ⟨hk, hpos, hsettled⟩ := h.of_pausing hs
  have hlast := hsettled.bounded
  rw [← hk, Plan.last] at hlast
  simp only [resume, hs, movesLeft]
  refine ⟨?_, fun _ => rfl⟩
  show 4 * (p.maxIterations - (k + 1)) + 2 < _
  omega

lemma movesLeft_finish {e : Exit} (hs : w.stage = .leaving e) :
    w.finish.1.movesLeft p < w.movesLeft p ∧ ∀ now, w.finish.1.waiting now = 0 := by
  simp only [finish, hs, movesLeft]
  exact ⟨Nat.zero_lt_one, fun _ => rfl⟩

end Worker

end StoreSoak
