import StoreSoak.Proofs.Worker.Outcome

/-!
Workers that nothing stands in the way of.

Where the guard of a plan is never there, every call of a worker is answered and every transaction
commits. Such a worker never fails: it leaves after its last iteration or because it is stopped, and
it has counted no aborted transaction.

* `Unopposed`: the calls of a worker were answered so, and it has not failed.
* `Turned.unopposed` and `Unopposed.receive`: a turn keeps a worker so, as long as its calls come
  back so and the time is one that a duration holds.
* `Unopposed.settled`: what such a worker has counted.
-/

namespace StoreSoak

namespace Worker

variable {p : Plan} {g : Generator} {s : Signals} {now : ℕ} {w w' : Worker}

/-- A worker whose calls were answered and whose transactions committed, and that has not failed. -/
structure Unopposed (w : Worker) : Prop where
  answered : ∀ c ∈ w.calls, ∀ r, c.reply = some r → r = .answered (c.request.foretold false)
  exit : ∀ e, w.stage = .leaving e ∨ w.stage = .gone e → e = .completed ∨ e = .cancelled

lemma Unopposed.launch (p : Plan) (entropy : ℕ → Generator) (index : ℕ) :
    Unopposed (launch p entropy index) := by
  refine ⟨fun c hc => absurd hc List.not_mem_nil, ?_⟩
  rintro e (h | h) <;> cases h

/-- A change that adds no reply, and after which nobody leaves with a failure. -/
lemma Unopposed.of_eq (h : w.Unopposed) (hcalls : ∀ c ∈ w'.calls, c ∈ w.calls ∨ c.reply = none)
    (hstage : ∀ e, w'.stage = .leaving e ∨ w'.stage = .gone e →
      e = .completed ∨ e = .cancelled ∨ w.stage = .leaving e) : w'.Unopposed := by
  refine ⟨fun c hc r hr => ?_, fun e he => ?_⟩
  · rcases hcalls c hc with hc | hnone
    · exact h.answered c hc r hr
    · rw [hnone] at hr
      cases hr
  · rcases hstage e he with he | he | he
    · exact .inl he
    · exact .inr he
    · exact h.exit e (.inl he)

lemma Unopposed.goTo (h : w.Unopposed) {stage : Stage}
    (hstage : ∀ e, stage = .leaving e ∨ stage = .gone e →
      e = .completed ∨ e = .cancelled ∨ w.stage = .leaving e) : (w.goTo stage).Unopposed :=
  h.of_eq (fun _ hc => .inl hc) hstage

/-- A worker that waits for no answer stays unopposed at its turn. -/
lemma Turned.unopposed (ht : Turned p s now w w') (h : w.Unopposed)
    (hwaits : ∀ k f since, w.stage ≠ .calling k f since) : w'.Unopposed := by
  cases ht with
  | @release go hs hgo =>
      rw [Worker.release, hs]
      cases go with
      | true => exact h.goTo (by rintro e (he | he) <;> cases he)
      | false => exact h.goTo (by rintro e (he | he) <;> cases he; exact .inr (.inl rfl))
  | check hs =>
      simp only [Worker.check, hs]
      split
      · exact h.goTo (by rintro e (he | he) <;> cases he; exact .inl rfl)
      · split
        · exact h.goTo (by rintro e (he | he) <;> cases he; exact .inr (.inl rfl))
        · exact h.goTo (by rintro e (he | he) <;> cases he)
  | issue hs =>
      simp only [Worker.issue, hs]
      refine h.of_eq (fun c hc => ?_) (by rintro e (he | he) <;> cases he)
      -- the call that was issued has no reply yet
      rcases List.mem_cons.mp hc with rfl | hc
      · exact .inr rfl
      · exact .inl hc
  | receive hs hadmits => exact absurd hs (hwaits _ _ _)
  | resume hs =>
      rw [Worker.resume, hs]
      exact h.goTo (by rintro e (he | he) <;> cases he)
  | interrupt hs hshutdown =>
      rw [Worker.interrupt, hs]
      exact h.goTo (by rintro e (he | he) <;> cases he; exact .inr (.inl rfl))
  | finish hs =>
      rw [Worker.finish, hs]
      exact h.goTo (by rintro e (he | he) <;> cases he; exact .inr (.inr hs))

/-- A worker whose call comes back and, if it is a transaction, has committed stays unopposed: its
tally has room for the iteration. -/
lemma Unopposed.receive (h : w.Unopposed) (hsound : Sound p g w) (htimely : Timely now w)
    (hlast : p.last < Totals.counterLimit) (hnow : now < Duration.limit) {k since : ℕ} {f : Flags}
    (hs : w.stage = .calling k f since) :
    (w.receive p now (.answered ((p.request k f).foretold false))).1.Unopposed := by
  obtain ⟨calls, hcalls, -, -, -⟩ := hsound.of_calling hs
  have hlatency : w.tally.totals.latency + (now - since) < Duration.limit := by
    have hle := htimely.latency
    rw [waiting, hs] at hle
    exact Nat.lt_of_le_of_lt hle hnow
  have hfits := hsound.totalsAfter_fits hs ((p.request k f).foretold false) htimely.consistent hlast
    hlatency
  obtain ⟨t, -, hreceive⟩ := receive_answered hs now _ hfits
  rw [hreceive]
  refine ⟨fun c hc r hr => ?_, fun e he => ?_⟩
  · rcases mem_noteReply hcalls hc with rfl | hc
    · exact (Option.some.inj hr).symm
    · exact h.answered c hc r hr
  · -- no transaction was refused, so that the worker is not held up
    have hfree : ¬ HeldUp p ((p.request k f).foretold false) := by
      rintro ⟨hrefused, -⟩
      rw [Request.foretold] at hrefused
      split at hrefused <;> cases hrefused
    dsimp only at he
    rw [stageAfter, if_neg hfree] at he
    split at he <;> rcases he with he | he <;> cases he

/-! ### What was counted -/

/-- A worker that has not failed leaves with its counts settled. -/
lemma Ended.settled {index : ℕ} {calls : List Call} {t : Totals} {e : Exit}
    (h : Ended p index calls t e) (he : e = .completed ∨ e = .cancelled) : Settled p calls t := by
  cases h with
  | completed hsettled _ => exact hsettled
  | cancelled hsettled => exact hsettled
  | failed _ _ _ => rcases he with he | he <;> cases he
  | guarded _ _ _ _ _ _ _ => rcases he with he | he <;> cases he
  | panicked _ _ => rcases he with he | he <;> cases he

/-- The answered calls that an unopposed worker has behind it, and what it has counted for them. -/
lemma Unopposed.settled (h : w.Unopposed) (hsound : Sound p g w) :
    ∃ calls, (∀ c ∈ calls, c ∈ w.calls) ∧ Settled p calls w.tally.totals := by
  have hstanding := hsound.standing
  rw [Standing] at hstanding
  -- a worker that leaves unopposed has settled every call it kept
  have hexit (e : Exit) (he : w.stage = .leaving e ∨ w.stage = .gone e)
      (hended : Ended p w.index w.calls w.tally.totals e) :
      ∃ calls, (∀ c ∈ calls, c ∈ w.calls) ∧ Settled p calls w.tally.totals :=
    ⟨w.calls, fun c hc => hc, hended.settled (h.exit e he)⟩
  cases hs : w.stage with
  | parked =>
      rw [hs] at hstanding
      refine ⟨[], fun c hc => absurd hc List.not_mem_nil, ?_⟩
      rw [hstanding.2]
      exact .nil p
  | looping k =>
      rw [hs] at hstanding
      exact ⟨w.calls, fun c hc => hc, hstanding.2⟩
  | cleared k =>
      rw [hs] at hstanding
      exact ⟨w.calls, fun c hc => hc, hstanding.2.2⟩
  | calling k f since =>
      rw [hs] at hstanding
      obtain ⟨calls, hcalls, -, -, hsettled⟩ := hstanding
      exact ⟨calls, fun c hc => by rw [hcalls]; exact List.mem_cons_of_mem _ hc, hsettled⟩
  | pausing k wake =>
      rw [hs] at hstanding
      exact ⟨w.calls, fun c hc => hc, hstanding.2.2⟩
  | leaving e =>
      rw [hs] at hstanding
      exact hexit e (.inl hs) hstanding
  | gone e =>
      rw [hs] at hstanding
      exact hexit e (.inr hs) hstanding

/-- An unopposed worker has counted no aborted transaction. -/
lemma Unopposed.aborted (h : w.Unopposed) (hsound : Sound p g w) : w.tally.totals.aborted = 0 := by
  obtain ⟨calls, hmem, hsettled⟩ := h.settled hsound
  rw [hsettled.aborted, List.countP_eq_zero]
  intro c hc hrefused
  rw [Call.isRefused, decide_eq_true_eq] at hrefused
  have hreply := h.answered c (hmem c hc) _ hrefused
  rw [Request.foretold] at hreply
  split at hreply <;> cases hreply

/-- No counter of an unopposed worker is higher than the number of its iterations. -/
lemma Unopposed.counters_le (h : w.Unopposed) (hsound : Sound p g w) :
    w.tally.totals.iterations ≤ p.last ∧ w.tally.totals.transactional ≤ p.last ∧
      w.tally.totals.direct ≤ p.last ∧ w.tally.totals.highPriority ≤ p.last ∧
      w.tally.totals.pauses ≤ p.last := by
  obtain ⟨calls, -, hsettled⟩ := h.settled hsound
  have hbound := hsettled.bounded
  rw [hsettled.iterations, hsettled.transactional, hsettled.direct, hsettled.highPriority,
    hsettled.pauses]
  refine ⟨hbound, by omega, by omega, List.countP_le_length.trans hbound, ?_⟩
  exact (Nat.div_le_self _ _).trans hbound

end Worker

end StoreSoak
