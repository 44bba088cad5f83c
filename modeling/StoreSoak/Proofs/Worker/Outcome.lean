import StoreSoak.Proofs.Pool.Trace
import StoreSoak.Proofs.Worker.Calm

/-!
What becomes of a worker that nobody stops.

Such a worker goes by its own draws and by the replies to its own calls. `Plan.outcome` tells its end
from these: it goes through the iterations with replies given beforehand, and no time passes.

* `Turned.row`: what came back of a worker's calls stays, and at most one reply is added to it.
* `Timely`: the latencies that a worker has counted are no longer than the time that has gone by.
* `future` is what becomes of a worker from where it stands. `Turned.future` says that no turn
  changes it, as long as nobody tells the worker to stop and the time is one that a duration holds.
* `Turned.stopped`: a worker is stopped by the shutdown signal, or because it is told not to start.
-/

namespace StoreSoak

/-- The totals without the latencies. -/
def Totals.untimed (t : Totals) : Totals :=
  { t with latency := 0, longest := 0 }

namespace Plan

/-- What a worker makes of the reply to the call of an iteration: the way in which it leaves, if it
does, and what it has counted then. -/
def heed (p : Plan) (index k : ℕ) (f : Flags) (t : Totals) :
    Reply (Option Bool) → Option Exit × Totals
  | .crashed payload => (some (.panicked payload.message), 0)
  | .failed source => (some (.failed (.store index k (kindOf k) source)), t)
  | .answered a =>
    let t := t + Totals.ofSample (Worker.sample k f 0 a)
    if Worker.HeldUp p a then (some (.failed (.guarded index k)), t)
    else if throttles p.throttleInterval k then (none, t + Totals.pause)
    else (none, t)

/-- The end that has come, or else what follows. -/
def conclude (next : Totals → Exit × Totals) : Option Exit × Totals → Exit × Totals
  | (some e, t) => (e, t)
  | (none, t) => next t

/-- The end of a worker, and what it has counted then, with so many iterations before it from the
given one on. The replies to its calls are given by their iterations. -/
def proceedAlone (p : Plan) (index : ℕ) (replies : ℕ → Reply (Option Bool)) :
    ℕ → ℕ → Generator → Totals → Exit × Totals
  | 0, _, _, t => (.completed, t)
  | left + 1, k, g, t =>
    conclude (p.proceedAlone index replies left (k + 1) (p.draw g).2)
      (p.heed index k (p.draw g).1 t (replies k))

/-- What becomes of a worker that nobody stops, given its generator and the replies to its calls. -/
def outcome (p : Plan) (index : ℕ) (g : Generator) (replies : ℕ → Reply (Option Bool)) :
    Exit × Totals :=
  p.proceedAlone index replies p.last 1 g 0

end Plan

/-- The replies in a row are those given by their iterations. -/
def RepliedBy (replies : ℕ → Reply (Option Bool)) (row : List Served) : Prop :=
  ∀ s ∈ row, s.reply = replies s.caller.iteration

instance (replies : ℕ → Reply (Option Bool)) (row : List Served) :
    Decidable (RepliedBy replies row) := by
  unfold RepliedBy; infer_instance

namespace Worker

variable {p : Plan} {g : Generator} {s : Signals} {now : ℕ} {w w' : Worker}
  {replies : ℕ → Reply (Option Bool)}

/-! ### What came back -/

/-- The reply to a call is added to what came back. -/
lemma row_receive (h : Sound p g w) {k since : ℕ} {f : Flags} (hs : w.stage = .calling k f since)
    {reply : Reply (Option Bool)} (hadmits : (p.request k f).Admits reply) :
    (w.receive p now reply).1.row = w.row ++ [⟨⟨w.index, k⟩, p.request k f, reply⟩] := by
  obtain ⟨calls, hcalls, -, -, -⟩ := h.of_calling hs
  have hnoted : (w.noteReply reply).calls = ⟨k, since, f, p.request k f, some reply⟩ :: calls := by
    rw [noteReply, hcalls]
  have hindex : (w.receive p now reply).1.index = w.index :=
    (Turned.receive (s := Signals.fresh) hs hadmits).moved.index
  rw [row, row, calls_receive p w now reply hs, hnoted, hindex, hcalls,
    List.filterMap_cons_some (Call.served?_of_reply w.index rfl), List.reverse_cons,
    List.filterMap_cons_none rfl]

/-- What came back of the calls of a worker is never taken back. -/
lemma Turned.row (ht : Turned p s now w w') (h : Sound p g w) : w.row <+: w'.row := by
  cases ht with
  | @release go hs hgo =>
      rw [Worker.release, hs]
      cases go <;> exact List.prefix_rfl
  | check hs =>
      simp only [Worker.check, hs]
      split
      · exact List.prefix_rfl
      · split <;> exact List.prefix_rfl
  | issue hs =>
      -- the call that was issued has not come back yet
      have hsame : (w.issue p now).1.row = w.row := by
        simp only [Worker.issue, hs]
        rw [Worker.row, List.filterMap_cons_none rfl]
        rfl
      rw [hsame]
  | receive hs hadmits =>
      rw [row_receive h hs hadmits]
      exact List.prefix_append _ _
  | resume hs =>
      rw [Worker.resume, hs]
      exact List.prefix_rfl
  | interrupt hs hshutdown =>
      rw [Worker.interrupt, hs]
      exact List.prefix_rfl
  | finish hs =>
      rw [Worker.finish, hs]
      exact List.prefix_rfl

/-! ### Time -/

/-- The latencies that a worker has counted, and the time for which it waits for its answer, have
gone by. -/
structure Timely (now : ℕ) (w : Worker) : Prop where
  latency : w.tally.totals.latency + w.waiting now ≤ now
  consistent : w.tally.totals.Consistent

lemma Timely.launch (p : Plan) (entropy : ℕ → Generator) (index : ℕ) :
    Timely 0 (launch p entropy index) :=
  ⟨Nat.le_refl 0, Nat.le_refl 0⟩

lemma Timely.tick (h : Timely now w) (d : ℕ) : Timely (now + d) w := by
  refine ⟨?_, h.consistent⟩
  have hlatency := h.latency
  rw [waiting] at hlatency ⊢
  split <;> rename_i hs <;> simp only [hs] at hlatency <;> omega

lemma Timely.of_tally (h : Timely now w) (htally : w'.tally = w.tally)
    (hwaiting : w'.waiting now = 0) : Timely now w' := by
  refine ⟨?_, by rw [htally]; exact h.consistent⟩
  have hlatency := h.latency
  rw [htally, hwaiting]
  omega

lemma proceed_totals (p : Plan) (w : Worker) (k now : ℕ) :
    (w.proceed p k now).1.tally.totals = w.tally.totals ∨
      (w.proceed p k now).1.tally.totals = w.tally.totals + Totals.pause := by
  rw [proceed]
  split
  · split
    · exact .inl rfl
    · rename_i t ht
      exact .inr (Tally.ofTotals?_eq_ok_iff.mp ht)
  · exact .inl rfl

lemma accept_totals (p : Plan) (w : Worker) (k now : ℕ) (a : Option Bool) :
    (w.accept p k now a).1.tally.totals = w.tally.totals ∨
      (w.accept p k now a).1.tally.totals = w.tally.totals + Totals.pause := by
  rw [accept]
  split
  · split
    · exact .inl rfl
    · exact proceed_totals p w k now
  · exact proceed_totals p w k now

/-- Whatever comes back, one sample is counted for it at most, and one pause after it. -/
lemma receive_totals {k since : ℕ} {f : Flags} (hs : w.stage = .calling k f since) (now : ℕ)
    (reply : Reply (Option Bool)) :
    (w.receive p now reply).1.tally.totals = w.tally.totals ∨ ∃ a,
      (w.receive p now reply).1.tally.totals =
        w.tally.totals + Totals.ofSample (sample k f (now - since) a) ∨
      (w.receive p now reply).1.tally.totals =
        w.tally.totals + Totals.ofSample (sample k f (now - since) a) + Totals.pause := by
  simp only [receive, hs]
  cases reply with
  | crashed payload => exact .inl rfl
  | failed source => exact .inl rfl
  | answered a =>
      dsimp only
      cases ht : (w.noteReply (.answered a)).tally.consume (sample k f (now - since) a) with
      | error o => exact .inl rfl
      | ok t =>
          have hsum : t.totals = w.tally.totals + Totals.ofSample (sample k f (now - since) a) :=
            Tally.ofTotals?_eq_ok_iff.mp ht
          refine .inr ⟨a, ?_⟩
          rw [← hsum]
          exact accept_totals p { w.noteReply (.answered a) with tally := t } k now a

/-- Whatever comes back, the latency that is counted for it has gone by. -/
lemma Timely.receive (h : Timely now w) {k since : ℕ} {f : Flags}
    (hs : w.stage = .calling k f since) (reply : Reply (Option Bool))
    (hwaiting : (w.receive p now reply).1.waiting now = 0) :
    Timely now (w.receive p now reply).1 := by
  have hlatency : w.tally.totals.latency + (now - since) ≤ now := by
    simpa only [waiting, hs] using h.latency
  have hsample (a : Option Bool) :
      w.tally.totals.latency + (Totals.ofSample (sample k f (now - since) a)).latency ≤ now := by
    have hle := latency_sample_le k (now - since) f a
    omega
  have hconsistent (a : Option Bool) :
      (w.tally.totals + Totals.ofSample (sample k f (now - since) a)).Consistent :=
    h.consistent.add (Nat.le_refl _)
  have hbounds : (w.receive p now reply).1.tally.totals.latency ≤ now ∧
      (w.receive p now reply).1.tally.totals.Consistent := by
    rcases receive_totals (p := p) hs now reply with ht | ⟨a, ht | ht⟩ <;> rw [ht]
    · exact ⟨Nat.le_of_add_right_le hlatency, h.consistent⟩
    · exact ⟨hsample a, hconsistent a⟩
    · exact ⟨hsample a, (hconsistent a).add (Nat.le_refl 0)⟩
  refine ⟨?_, hbounds.2⟩
  rw [hwaiting]
  exact hbounds.1

/-- A turn takes no time. -/
lemma Turned.timely (ht : Turned p s now w w') (hsound : Sound p g w) (h : Timely now w) :
    Timely now w' := by
  cases ht with
  | @release go hs hgo =>
      exact h.of_tally (w.release_tally go) ((movesLeft_release (p := p) hs go).2 now)
  | check hs => exact h.of_tally (check_tally p w s.shutdown) ((movesLeft_check hs s.shutdown).2 now)
  | issue hs => exact h.of_tally (issue_tally p w now) (movesLeft_issue (p := p) hs now).2
  | @receive k since f hs reply hadmits =>
      exact h.receive hs reply (movesLeft_receive hsound hs now reply).2
  | resume hs => exact h.of_tally w.resume_tally ((movesLeft_resume hsound hs).2 now)
  | interrupt hs hshutdown =>
      rw [Worker.interrupt, hs]
      exact h.of_tally rfl rfl
  | finish hs => exact h.of_tally w.finish_tally ((movesLeft_finish (p := p) hs).2 now)

/-! ### What is still to come -/

/-- What becomes of a worker from where it stands, if nobody stops it, given the replies to its
calls by their iterations. -/
def future (p : Plan) (replies : ℕ → Reply (Option Bool)) (w : Worker) : Exit × Totals :=
  match w.stage with
  | .parked => p.proceedAlone w.index replies p.last 1 w.generator w.tally.totals.untimed
  | .looping k =>
    p.proceedAlone w.index replies (p.maxIterations - k) k w.generator w.tally.totals.untimed
  | .cleared k =>
    p.proceedAlone w.index replies (p.maxIterations - k) k w.generator w.tally.totals.untimed
  | .calling k f _ =>
    Plan.conclude (p.proceedAlone w.index replies (p.maxIterations - (k + 1)) (k + 1) w.generator)
      (p.heed w.index k f w.tally.totals.untimed (replies k))
  | .pausing k _ =>
    p.proceedAlone w.index replies (p.maxIterations - (k + 1)) (k + 1) w.generator
      w.tally.totals.untimed
  | .leaving e => (e, (w.reportOf e).tally.totals.untimed)
  | .gone e => (e, (w.reportOf e).tally.totals.untimed)

lemma future_launch (p : Plan) (replies : ℕ → Reply (Option Bool)) (entropy : ℕ → Generator)
    (index : ℕ) :
    (launch p entropy index).future p replies = p.outcome index (p.generator entropy index) replies :=
  rfl

lemma future_release (hs : w.stage = .parked) :
    (w.release true).1.future p replies = w.future p replies := by
  simp only [release, future, hs]
  rfl

lemma future_check {k : ℕ} (hs : w.stage = .looping k) :
    (w.check p false).1.future p replies = w.future p replies := by
  simp only [check, future, hs]
  by_cases hlast : p.maxIterations ≤ k
  · rw [if_pos hlast, Nat.sub_eq_zero_of_le hlast]
    rfl
  · rw [if_neg hlast]
    rfl

lemma future_issue {k : ℕ} (hs : w.stage = .cleared k) (hlast : k ≤ p.last) (hpos : 0 < k)
    (now : ℕ) : (w.issue p now).1.future p replies = w.future p replies := by
  have hleft : p.maxIterations - k = (p.maxIterations - (k + 1)) + 1 := by
    rw [Plan.last] at hlast
    omega
  simp only [issue, future, hs, hleft]
  rfl

lemma future_resume {k wake : ℕ} (hs : w.stage = .pausing k wake) :
    w.resume.1.future p replies = w.future p replies := by
  simp only [resume, future, hs]
  rfl

lemma future_finish {e : Exit} (hs : w.stage = .leaving e) :
    w.finish.1.future p replies = w.future p replies := by
  simp only [finish, future, hs]
  rfl

/-- After an answer a worker has counted what it heeds, but for the latency. -/
lemma untimed_totalsAfter (p : Plan) (w : Worker) (k latency : ℕ) (f : Flags) (a : Option Bool) :
    (totalsAfter p w k latency f a).untimed =
      (p.heed w.index k f w.tally.totals.untimed (.answered a)).2 := by
  rw [totalsAfter, Plan.heed]
  by_cases hheld : HeldUp p a
  · rw [if_pos (.inl hheld), if_pos hheld]
    rfl
  · cases hth : Plan.throttles p.throttleInterval k with
    | false =>
        rw [if_pos (.inr rfl), if_neg hheld]
        rfl
    | true =>
        rw [if_neg (by simp [hheld]), if_neg hheld]
        rfl

/-- A reply that was given beforehand brings nothing new. -/
lemma future_receive {k since : ℕ} {f : Flags} (hs : w.stage = .calling k f since) (now : ℕ)
    (hfits : ∀ a, replies k = .answered a → (totalsAfter p w k (now - since) f a).Fits) :
    (w.receive p now (replies k)).1.future p replies = w.future p replies := by
  have hbefore : w.future p replies =
      Plan.conclude (p.proceedAlone w.index replies (p.maxIterations - (k + 1)) (k + 1) w.generator)
        (p.heed w.index k f w.tally.totals.untimed (replies k)) := by
    rw [future, hs]
  rw [hbefore]
  cases hreply : replies k with
  | crashed payload =>
      simp only [receive, hs]
      rfl
  | failed source =>
      simp only [receive, hs]
      rfl
  | answered a =>
      obtain ⟨t, htotals, hreceive⟩ := receive_answered hs now a (hfits a hreply)
      have huntimed : t.totals.untimed =
          (p.heed w.index k f w.tally.totals.untimed (.answered a)).2 := by
        rw [htotals, untimed_totalsAfter]
      rw [hreceive, stageAfter]
      rw [Plan.heed] at huntimed ⊢
      by_cases hheld : HeldUp p a
      · simp only [if_pos hheld] at huntimed ⊢
        show (_, t.totals.untimed) = _
        rw [huntimed]
        rfl
      · simp only [if_neg hheld] at huntimed ⊢
        cases hth : Plan.throttles p.throttleInterval k with
        | true =>
            simp only [hth, if_true] at huntimed ⊢
            show p.proceedAlone _ _ _ _ _ t.totals.untimed = _
            rw [huntimed]
            rfl
        | false =>
            simp only [hth, Bool.false_eq_true, if_false] at huntimed ⊢
            show p.proceedAlone _ _ _ _ _ t.totals.untimed = _
            rw [huntimed]
            rfl

/-- **No turn changes what becomes of a worker**, as long as nobody tells it to stop. -/
theorem Turned.future (ht : Turned p s now w w') (hsound : Sound p g w) (htimely : Timely now w)
    (hstart : s.fired = true ∨ s.lifecycle = true) (hshutdown : s.shutdown = false)
    (hlast : p.last < Totals.counterLimit) (hnow : now < Duration.limit)
    (hreplies : RepliedBy replies w'.row) : w'.future p replies = w.future p replies := by
  cases ht with
  | release hs hgo =>
      obtain rfl := Signals.go_of_started hstart hshutdown hgo
      exact future_release hs
  | check hs =>
      rw [hshutdown]
      exact future_check hs
  | issue hs =>
      obtain ⟨hk, hbound, -⟩ := hsound.of_cleared hs
      exact future_issue hs hbound (by omega) now
  | @receive k since f hs reply hadmits =>
      -- the reply is the one foreseen for this call, as the row of the later worker shows
      have hreply : reply = replies k := by
        refine hreplies ⟨⟨w.index, k⟩, p.request k f, reply⟩ ?_
        rw [row_receive hsound hs hadmits]
        exact List.mem_concat_self
      rw [hreply]
      refine future_receive hs now fun a _ => ?_
      have hlatency : w.tally.totals.latency + (now - since) ≤ now := by
        simpa only [waiting, hs] using htimely.latency
      exact hsound.totalsAfter_fits hs a htimely.consistent hlast (by omega)
  | resume hs => exact future_resume hs
  | interrupt hs hraised =>
      rw [hshutdown] at hraised
      cases hraised
  | finish hs => exact future_finish hs

/-! ### Being stopped -/

/-- The worker was stopped before its end. -/
def Stopped (w : Worker) : Prop :=
  w.stage = .leaving .cancelled ∨ w.stage = .gone .cancelled

/-- Whatever comes back of its call, a worker is not stopped by it. -/
lemma not_stopped_receive {k since : ℕ} {f : Flags} (hs : w.stage = .calling k f since)
    (reply : Reply (Option Bool)) : ¬ (w.receive p now reply).1.Stopped := by
  rw [Stopped]
  rcases receive_stage (p := p) hs now reply with ⟨e, he, hfailure⟩ | ⟨-, he⟩ | ⟨-, he⟩ <;> rw [he]
  · rintro (h | h) <;> cases h
    exact hfailure 0 rfl
  · rintro (h | h) <;> cases h
  · rintro (h | h) <;> cases h

/-- **A worker is stopped** by the shutdown signal, or when it is told not to start. -/
theorem Turned.stopped (ht : Turned p s now w w') (h : w'.Stopped) :
    w.Stopped ∨ s.shutdown = true ∨ s.started = some false := by
  -- a worker is stopped at its start, at the head of its loop or in a pause
  cases ht with
  | @release go hs hgo =>
      cases go with
      | false => exact .inr (.inr hgo)
      | true =>
          simp only [Stopped, Worker.release, hs] at h
          rcases h with h | h <;> cases h
  | check hs =>
      cases hshutdown : s.shutdown with
      | true => exact .inr (.inl rfl)
      | false =>
          simp only [Stopped, Worker.check, hs, hshutdown] at h
          split at h <;> rcases h with h | h <;> cases h
  | issue hs =>
      simp only [Stopped, Worker.issue, hs] at h
      rcases h with h | h <;> cases h
  | receive hs hadmits => exact absurd h (not_stopped_receive hs _)
  | resume hs =>
      simp only [Stopped, Worker.resume, hs] at h
      rcases h with h | h <;> cases h
  | interrupt hs hshutdown => exact .inr (.inl hshutdown)
  | @finish e hs =>
      simp only [Stopped, Worker.finish, hs] at h
      rcases h with h | h <;> cases h
      exact .inl (.inl hs)

/-- A worker that is gone has no turn any more. -/
lemma Turned.not_gone (ht : Turned p s now w w') {e : Exit} : w.stage ≠ .gone e := by
  intro hgone
  cases ht <;> simp_all

/-- Only a worker that leaves can be gone after its turn. -/
lemma Turned.gone (ht : Turned p s now w w') {e : Exit} (h : w'.stage = .gone e) :
    w.stage = .leaving e := by
  -- a worker goes only by finishing
  cases ht with
  | @release go hs hgo =>
      simp only [Worker.release, hs] at h
      cases go <;> cases h
  | check hs =>
      simp only [Worker.check, hs] at h
      split at h
      · cases h
      · split at h <;> cases h
  | issue hs =>
      simp only [Worker.issue, hs] at h
      cases h
  | receive hs hadmits =>
      rcases receive_stage hs now _ with ⟨e, he, -⟩ | ⟨-, he⟩ | ⟨-, he⟩ <;>
        · rw [he] at h
          cases h
  | resume hs =>
      simp only [Worker.resume, hs] at h
      cases h
  | interrupt hs hshutdown =>
      simp only [Worker.interrupt, hs] at h
      cases h
  | finish hs =>
      simp only [Worker.finish, hs] at h
      cases h
      exact hs

end Worker

end StoreSoak
