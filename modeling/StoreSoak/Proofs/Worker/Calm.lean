import StoreSoak.Proofs.Worker.Draws
import StoreSoak.Proofs.Worker.Moves

/-!
Workers whose calls are all answered as the plan foretells.

Where the guard of a plan is always there or never, the answer to a call is known beforehand: a set
waits for no answer, and every transaction is refused or none is. A worker that gets these answers
and is not stopped has only two ways to leave, and what it has counted is known.

* `Request.foretold` is the answer that a request gets.
* `Calm`: the calls of a worker were answered so, and it was not stopped and did not break down.
* `Calm.exit`: a calm worker leaves after its last iteration, or is held up at its first
  transaction.
* `Issued.countP_drawn` and `Calm.countP_refused` count urgent draws and refused calls.
-/

namespace StoreSoak

/-- The answer to a request where transactions are refused or not. -/
def Request.foretold (refused : Bool) (r : Request) : Option Bool :=
  if r.isTransaction then some (!refused) else none

namespace Plan

/-- The number of urgent ones among the first draws of a generator. -/
def urgentDraws (p : Plan) (g : Generator) (k : ℕ) : ℕ :=
  (Draw.sequence (Draw.sides p.highPriorityOdds) k g).countP (· = 0)

/-- Whether the workers of a plan are held up: the plan is strict, transactions are refused, and
there is one to be refused. -/
def HeldUp (p : Plan) (refused : Bool) : Prop :=
  p.strictGuard = true ∧ refused = true ∧ 2 ≤ p.last

instance (p : Plan) (refused : Bool) : Decidable (p.HeldUp refused) := by
  unfold HeldUp; infer_instance

/-- The number of iterations that are counted for a worker that is not stopped. -/
def reach (p : Plan) (refused : Bool) : ℕ :=
  if p.HeldUp refused then 2 else p.last

/-- The way in which a worker leaves that is not stopped. -/
def exitOf (p : Plan) (refused : Bool) (index : ℕ) : Exit :=
  if p.HeldUp refused then .failed (.guarded index 2) else .completed

/-- What is counted for a worker that is not stopped. A worker that is held up does not pause after
the iteration at which it is. -/
def foretold (p : Plan) (refused : Bool) (g : Generator) : Totals :=
  { Totals.zero with
    iterations := p.reach refused
    direct := (p.reach refused + 1) / 2
    transactional := p.reach refused / 2
    highPriority := p.urgentDraws g (p.reach refused)
    aborted := if refused then p.reach refused / 2 else 0
    pauses := (if p.HeldUp refused then 1 else p.last) / p.throttleInterval }

end Plan

namespace Worker

variable {p : Plan} {g g' : Generator} {w v : Worker} {calls : List Call} {refused : Bool}

/-! ### What was issued -/

/-- Every iteration up to the last one has its call. -/
lemma Issued.exists_call (h : Issued p g calls g') {j : ℕ} (hpos : 1 ≤ j) (hj : j ≤ calls.length) :
    ∃ c ∈ calls, c.iteration = j ∧ c.request = p.request j c.drawn := by
  induction h with
  | nil =>
      rw [List.length_nil] at hj
      omega
  | @cons calls g' h now reply ih =>
      rw [List.length_cons] at hj
      by_cases hlast : j = calls.length + 1
      · subst hlast
        exact ⟨_, List.mem_cons_self, rfl, rfl⟩
      · obtain ⟨c, hc, hiteration, hrequest⟩ := ih (by omega)
        exact ⟨c, List.mem_cons_of_mem _ hc, hiteration, hrequest⟩

/-- The urgent calls are the urgent draws of the generator. -/
lemma Issued.countP_drawn (h : Issued p g calls g') :
    calls.countP (fun c => c.drawn.highPriority) = p.urgentDraws g calls.length := by
  have hflags (d : UInt32) : (Draw.flagsOf d).highPriority = decide (d = 0) :=
    Draw.highPriority_flagsOf d
  calc
    calls.countP (fun c => c.drawn.highPriority)
      = (calls.reverse.map Call.drawn).countP Flags.highPriority := by
        rw [List.countP_map, List.countP_reverse]
        rfl
    _ = p.urgentDraws g calls.length := by
        rw [h.drawn.1, List.countP_map, Plan.urgentDraws]
        exact List.countP_congr fun d _ => by rw [Function.comp, hflags]

/-! ### The invariant -/

/-- A worker whose calls were answered as foretold, and that was not stopped and did not break
down. -/
structure Calm (refused : Bool) (w : Worker) : Prop where
  answered : ∀ c ∈ w.calls, ∀ r, c.reply = some r → r = .answered (c.request.foretold refused)
  unstopped : ∀ e, w.stage = .leaving e ∨ w.stage = .gone e →
    e ≠ .cancelled ∧ ∀ reason, e ≠ .panicked reason
  consistent : w.tally.totals.Consistent

lemma Calm.launch (p : Plan) (refused : Bool) (entropy : ℕ → Generator) (index : ℕ) :
    Calm refused (launch p entropy index) := by
  refine ⟨fun c hc => absurd hc List.not_mem_nil, ?_, Nat.le_refl 0⟩
  rintro e (h | h) <;> cases h

/-- A move that leaves the answers and the tally alone, and by which nobody leaves. -/
lemma Calm.of_eq (h : Calm refused w) (hcalls : ∀ c ∈ v.calls, c ∈ w.calls ∨ c.reply = none)
    (htally : v.tally = w.tally)
    (hstage : ∀ e, v.stage = .leaving e ∨ v.stage = .gone e →
      e = .completed ∨ w.stage = .leaving e) : Calm refused v := by
  refine ⟨?_, ?_, by rw [htally]; exact h.consistent⟩
  · intro c hc r hr
    rcases hcalls c hc with hc | hnone
    · exact h.answered c hc r hr
    · rw [hnone] at hr
      cases hr
  · intro e he
    rcases hstage e he with rfl | he
    · simp
    · exact h.unstopped e (.inl he)

lemma Calm.goTo (h : Calm refused w) {stage : Stage}
    (hstage : ∀ e, stage = .leaving e ∨ stage = .gone e → e = .completed ∨ w.stage = .leaving e) :
    Calm refused (w.goTo stage) :=
  h.of_eq (fun _ hc => .inl hc) rfl hstage

lemma Calm.release (h : Calm refused w) : Calm refused (w.release true).1 := by
  rw [Worker.release]
  split
  · exact h.goTo (by rintro e (he | he) <;> cases he)
  · exact h

lemma Calm.check (h : Calm refused w) (p : Plan) : Calm refused (w.check p false).1 := by
  rw [Worker.check]
  split
  · split
    · refine h.goTo ?_
      rintro e (he | he) <;> cases he
      exact .inl rfl
    · exact h.goTo (by rintro e (he | he) <;> cases he)
  · exact h

/-- A call that was issued has no answer yet. -/
lemma Calm.issue (h : Calm refused w) (p : Plan) (now : ℕ) : Calm refused (w.issue p now).1 := by
  rw [Worker.issue]
  split
  · refine h.of_eq ?_ rfl (by rintro e (he | he) <;> cases he)
    intro c hc
    rcases List.mem_cons.mp hc with rfl | hc
    · exact .inr rfl
    · exact .inl hc
  · exact h

lemma Calm.resume (h : Calm refused w) : Calm refused w.resume.1 := by
  rw [Worker.resume]
  split
  · exact h.goTo (by rintro e (he | he) <;> cases he)
  · exact h

lemma Calm.finish (h : Calm refused w) : Calm refused w.finish.1 := by
  rw [Worker.finish]
  split
  · rename_i hstage
    refine h.goTo ?_
    rintro e (he | he) <;> cases he
    exact .inr hstage
  · exact h

/-- The latency of a sample is cut where it is out of range. -/
lemma latency_sample_le (k latency : ℕ) (f : Flags) (a : Option Bool) :
    (Totals.ofSample (sample k f latency a)).latency ≤ latency := by
  show (Duration.clamped latency).nanoseconds ≤ latency
  rw [Duration.clamped]
  split
  · exact Nat.le_refl latency
  · show Duration.limit - 1 ≤ latency
    omega

/-- After an answer every counter of a worker has gone up by one at most. -/
lemma totalsAfter_bounds (p : Plan) (w : Worker) (k latency : ℕ) (f : Flags) (a : Option Bool) :
    (totalsAfter p w k latency f a).latency ≤ w.tally.totals.latency + latency ∧
      (totalsAfter p w k latency f a).iterations = w.tally.totals.iterations + 1 ∧
      (totalsAfter p w k latency f a).transactional ≤ w.tally.totals.transactional + 1 ∧
      (totalsAfter p w k latency f a).direct ≤ w.tally.totals.direct + 1 ∧
      (totalsAfter p w k latency f a).highPriority ≤ w.tally.totals.highPriority + 1 ∧
      (totalsAfter p w k latency f a).aborted ≤ w.tally.totals.aborted + 1 ∧
      (totalsAfter p w k latency f a).pauses ≤ w.tally.totals.pauses + 1 := by
  have hone (c : Prop) [Decidable c] (n : ℕ) : n + (if c then 1 else 0) ≤ n + 1 := by
    split <;> omega
  have hsample : (Totals.ofSample (sample k f latency a)).latency ≤ latency :=
    latency_sample_le k latency f a
  rw [totalsAfter]
  split
  · exact ⟨Nat.add_le_add_left hsample _, rfl, hone _ _, hone _ _, hone _ _, hone _ _,
      Nat.le_succ _⟩
  · exact ⟨Nat.add_le_add_left hsample _, rfl, hone _ _, hone _ _, hone _ _, hone _ _,
      Nat.le_refl _⟩

lemma totalsAfter_consistent (h : w.tally.totals.Consistent) (p : Plan) (k latency : ℕ) (f : Flags)
    (a : Option Bool) : (totalsAfter p w k latency f a).Consistent := by
  have hsample : (w.tally.totals + Totals.ofSample (sample k f latency a)).Consistent :=
    h.add (Nat.le_refl _)
  rw [totalsAfter]
  split
  · exact hsample
  · exact hsample.add (Nat.le_refl 0)

/-- The tally of a worker has room for an answer: every counter is at most the number of its
iterations. -/
lemma Sound.totalsAfter_fits (hs : Sound p g w) {k since : ℕ} {f : Flags}
    (hstage : w.stage = .calling k f since) {latency : ℕ} (a : Option Bool)
    (hconsistent : w.tally.totals.Consistent) (hlast : p.last < Totals.counterLimit)
    (hlatency : w.tally.totals.latency + latency < Duration.limit) :
    (totalsAfter p w k latency f a).Fits := by
  obtain ⟨calls, -, hk, hbound, hsettled⟩ := hs.of_calling hstage
  have hdirect := hsettled.direct
  have htransactional := hsettled.transactional
  -- no counter exceeds the number of settled calls, and these are fewer than the plan allows
  have hhigh : w.tally.totals.highPriority ≤ calls.length := by
    rw [hsettled.highPriority]
    exact List.countP_le_length
  have haborted : w.tally.totals.aborted ≤ calls.length := by
    rw [hsettled.aborted]
    exact List.countP_le_length
  have hpauses : w.tally.totals.pauses ≤ calls.length := by
    rw [hsettled.pauses]
    exact Nat.div_le_self _ _
  have hlongest := totalsAfter_consistent hconsistent p k latency f a
  rw [Totals.Consistent] at hlongest
  obtain ⟨hl, hi, ht, hd, hh, ha, hp⟩ := totalsAfter_bounds p w k latency f a
  rw [hsettled.iterations] at hi
  exact ⟨⟨by omega, by omega, by omega, by omega, by omega, by omega⟩, by omega, by omega⟩

/-- An answer as foretold leaves a worker calm, where its tally has room for it. -/
lemma Calm.receive (h : Calm refused w) (hs : Sound p g w) {k since : ℕ} {f : Flags}
    (hstage : w.stage = .calling k f since) (now : ℕ)
    (hfits : (totalsAfter p w k (now - since) f ((p.request k f).foretold refused)).Fits) :
    Calm refused (w.receive p now (.answered ((p.request k f).foretold refused))).1 := by
  obtain ⟨calls, hcalls, -, -, -⟩ := hs.of_calling hstage
  obtain ⟨t, htotals, hreceive⟩ := receive_answered hstage now _ hfits
  rw [hreceive]
  refine ⟨?_, ?_, ?_⟩
  · intro c hc r hr
    rcases mem_noteReply hcalls hc with rfl | hc
    · exact (Option.some.inj hr).symm
    · exact h.answered c hc r hr
  · intro e he
    -- the only way to leave here is the guard
    have hafter : e = .failed (.guarded w.index k) := by
      dsimp only at he
      rw [stageAfter] at he
      split at he
      · rcases he with he | he <;> cases he
        rfl
      · split at he <;> rcases he with he | he <;> cases he
    rw [hafter]
    simp
  · show t.totals.Consistent
    rw [htotals]
    exact totalsAfter_consistent h.consistent p k _ f _

/-! ### The way out -/

/-- An answered call was refused if it was a transaction and transactions are refused. -/
lemma Calm.isRefused (h : Calm refused w) {c : Call} (hc : c ∈ w.calls)
    (hanswered : c.isAnswered = true) :
    c.isRefused = (refused && c.request.isTransaction) := by
  rw [Call.isAnswered] at hanswered
  cases hr : c.reply with
  | none =>
      rw [hr] at hanswered
      cases hanswered
  | some r =>
      rw [Call.isRefused_of_reply (hr.trans (congrArg some (h.answered c hc r hr))),
        Request.foretold]
      cases c.request.isTransaction <;> cases refused <;> rfl

/-- Of the first answered calls of a worker every second one was refused, or none. -/
lemma Calm.countP_refused (h : Calm refused w) (hissued : Issued p g calls g')
    (hcalls : ∀ c ∈ calls, c ∈ w.calls) (hanswered : ∀ c ∈ calls, c.isAnswered = true) :
    calls.countP Call.isRefused = if refused then calls.length / 2 else 0 := by
  induction hissued with
  | nil => simp
  | @cons calls g' hissued now reply ih =>
      have hrest := ih (fun c hc => hcalls c (List.mem_cons_of_mem _ hc))
        fun c hc => hanswered c (List.mem_cons_of_mem _ hc)
      rw [List.countP_cons, hrest, h.isRefused (hcalls _ List.mem_cons_self)
        (hanswered _ List.mem_cons_self), Plan.isTransaction_request, List.length_cons]
      cases refused with
      | false => rfl
      | true =>
          simp only [Bool.true_and, decide_eq_true_eq, if_true]
          split <;> omega

/-- Where transactions are refused a calm worker that has answered its first one is not strict. -/
lemma Calm.length_lt_two (h : Calm refused w) (hrefused : refused = true)
    (hstrict : p.strictGuard = true) {before : List Call} (hmem : ∀ c ∈ before, c ∈ w.calls)
    (hissued : Issued p g before g') {t : Totals} (hsettled : Settled p before t) :
    before.length < 2 := by
  by_contra htwo
  obtain ⟨c, hc, -, hrequest⟩ := hissued.exists_call (j := 2) (by omega) (by omega)
  have hr : c.isRefused = true := by
    rw [h.isRefused (hmem c hc) (hsettled.answered c hc), hrefused, hrequest,
      Plan.isTransaction_request]
    rfl
  rw [hsettled.lenient hstrict c hc] at hr
  cases hr

/-- A calm worker whose counts are those of its calls has counted what is foretold. -/
lemma Calm.totals_eq (h : Calm refused w) (hs : Sound p g w)
    (hcount : Counted w.calls w.tally.totals) (hlength : w.calls.length = p.reach refused)
    (hpauses : w.tally.totals.pauses =
      (if p.HeldUp refused then 1 else p.last) / p.throttleInterval) :
    w.tally.totals =
      { p.foretold refused g with
        latency := w.tally.totals.latency, longest := w.tally.totals.longest } := by
  ext
  · rw [hcount.iterations, hlength]
    rfl
  · rw [hcount.transactional, hlength]
    rfl
  · rw [hcount.direct, hlength]
    rfl
  · rw [hcount.highPriority, hs.issued.countP_drawn, hlength]
    rfl
  · rw [hcount.aborted, h.countP_refused hs.issued (fun c hc => hc) hcount.answered, hlength]
    rfl
  · exact hpauses
  · rfl
  · rfl

/-- **A calm worker leaves as foretold**, with the counts that are foretold. -/
theorem Calm.exit (h : Calm refused w) (hs : Sound p g w) {e : Exit}
    (hended : Ended p w.index w.calls w.tally.totals e)
    (hunstopped : e ≠ .cancelled ∧ ∀ reason, e ≠ .panicked reason) :
    e = p.exitOf refused w.index ∧ w.tally.totals =
      { p.foretold refused g with
        latency := w.tally.totals.latency, longest := w.tally.totals.longest } := by
  generalize hcalls : w.calls = calls at hended
  generalize htotals : w.tally.totals = t at hended
  cases hended with
  | completed hsettled hlast =>
      rw [← hcalls, ← htotals] at hsettled
      rw [← hcalls] at hlast
      have hfree : ¬ p.HeldUp refused := by
        rintro ⟨hstrict, hrefused, htwo⟩
        have hlt := h.length_lt_two hrefused hstrict (fun c hc => hc) hs.issued hsettled
        omega
      rw [← htotals]
      refine ⟨by rw [Plan.exitOf, if_neg hfree], h.totals_eq hs hsettled.toCounted ?_ ?_⟩
      · rw [hlast, Plan.reach, if_neg hfree]
      · rw [hsettled.pauses, hlast, if_neg hfree]
  | cancelled _ => exact absurd rfl hunstopped.1
  | @failed c calls t source hsettled hlast hc =>
      have hanswer := h.answered c (by rw [hcalls]; exact List.mem_cons_self) _ hc
      cases hanswer
  | @guarded c calls t₀ t hsettled hlast hstrict hc heven hcount hpauses =>
      have hmem : c ∈ w.calls := by
        rw [hcalls]
        exact List.mem_cons_self
      have hrefused : refused = true := by
        have hr := h.isRefused hmem (hcount.answered c List.mem_cons_self)
        rw [hc] at hr
        exact (Bool.and_eq_true_iff.mp hr.symm).1
      -- the call before was the first one: a refused transaction before it would have been the end
      have hone : calls.length = 1 := by
        have hissued := hs.issued
        rw [hcalls] at hissued
        generalize w.generator = g' at hissued
        cases hissued with
        | @cons _ _ hissued _ _ =>
            have hlt := h.length_lt_two hrefused hstrict
              (fun d hd => by rw [hcalls]; exact List.mem_cons_of_mem _ hd) hissued hsettled
            omega
      have hheld : p.HeldUp refused := ⟨hstrict, hrefused, by omega⟩
      rw [← hcalls, ← htotals] at hcount
      rw [hone, ← htotals] at hpauses
      rw [← htotals]
      refine ⟨by rw [Plan.exitOf, if_pos hheld, hone], h.totals_eq hs hcount ?_ ?_⟩
      · rw [hcalls, List.length_cons, hone, Plan.reach, if_pos hheld]
      · rw [hpauses, if_pos hheld]
  | panicked reason _ => exact absurd rfl (hunstopped.2 reason)

end Worker

end StoreSoak
