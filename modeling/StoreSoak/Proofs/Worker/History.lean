import Mathlib.Tactic
import StoreSoak.Signals
import StoreSoak.Worker

/-!
The calls of a worker and its tally.

A worker keeps all its calls, and at every moment its stage, its tally and its calls say the same.
Every iteration up to the last one issued has exactly one call, the one of the plan with the flags
that the generator gave; the tally counts the calls that were answered.

* `Issued`: the calls are those of the iterations one, two, three and so on, and their flags are the
  draws of the generator in order.
* `Counted`: totals that count a row of answered calls; `Settled`: totals of a worker that has
  answered calls behind it and goes on; `Ended`: the totals of a worker that has left its loop.
* `Sound`: the invariant of a worker, stage by stage. `Moved` lists the moves of a worker, and
  `Sound.moved` says that each of them keeps it. `Turned` lists the moves as they come about at a
  worker's turn, given its stage, the signals and the time.
-/

namespace StoreSoak

/-! ### Requests and their replies -/

/-- Whether a reply is an answer. -/
def Reply.isAnswered {α : Type} : Reply α → Bool
  | .answered _ => true
  | .failed _ => false
  | .crashed _ => false

namespace Request

/-- Whether a request is a transaction. -/
def isTransaction : Request → Bool
  | .set _ _ _ => false
  | .execute _ => true

/-- The replies a request can get: the answer to a transaction says whether it committed, the answer
to a set does not. -/
def Admits (r : Request) : Reply (Option Bool) → Prop
  | .answered a => a.isSome = r.isTransaction
  | .failed _ => True
  | .crashed _ => True

/-- A database answers a request with a reply that it can get. -/
lemma admits_perform {σ : Type} (r : Request) (db : Database σ) (caller : Caller) (s : σ) :
    r.Admits (r.perform db caller s).1 := by
  cases r with
  | set key value f =>
      simp only [perform]
      cases (db.set caller key value f s).1 <;> simp [Reply.map, Admits, isTransaction]
  | execute t =>
      simp only [perform]
      cases (db.execute caller t s).1 <;> simp [Reply.map, Admits, isTransaction]

end Request

namespace Plan

/-- The flags of one iteration, and the generator after the draw. -/
def draw (p : Plan) (g : Generator) : Flags × Generator :=
  let d := Draw.below (Draw.sides p.highPriorityOdds) g
  (Draw.flagsOf d.1, d.2)

/-- The request of an iteration, spelled out. -/
lemma request_eq (p : Plan) (k : ℕ) (f : Flags) :
    p.request k f = if k % 2 = 1 then .set p.sharedKey p.payload f
      else
        .execute ⟨[.absent p.guardKey], [⟨p.sharedKey, p.payload, f.union Flags.forgetful⟩]⟩ := by
  rcases Nat.mod_two_eq_zero_or_one k with h | h <;>
    simp [request, kindOf, h, Transaction.require, Transaction.stage, Transaction.empty]

/-- The transactions are the requests of the even iterations. -/
lemma isTransaction_request (p : Plan) (k : ℕ) (f : Flags) :
    (p.request k f).isTransaction = decide (k % 2 = 0) := by
  by_cases h : k % 2 = 0 <;> simp [request, kindOf, h, Request.isTransaction]

/-- The numbers of pauses after `k` and `k + 1` iterations differ by the pause after the last
one. -/
lemma pauses_succ (interval k : ℕ) :
    (k + 1) / interval = k / interval + if throttles interval (k + 1) then 1 else 0 := by
  have h : throttles interval (k + 1) = decide (interval ∣ k + 1) := by
    by_cases hi : interval = 0
    · simp [throttles, hi]
    · simp [throttles, hi, Nat.dvd_iff_mod_eq_zero]
  rw [Nat.succ_div, h]
  simp

end Plan

namespace Call

/-- Whether the call came back with an answer. -/
def isAnswered (c : Call) : Bool :=
  c.reply.any Reply.isAnswered

/-- Whether the call came back with the answer that its guard did not hold. -/
def isRefused (c : Call) : Bool :=
  c.reply = some (.answered (some false))

lemma isAnswered_of_reply {c : Call} {a : Option Bool} (h : c.reply = some (.answered a)) :
    c.isAnswered = true := by
  rw [isAnswered, h]
  rfl

lemma isRefused_of_reply {c : Call} {a : Option Bool} (h : c.reply = some (.answered a)) :
    c.isRefused = decide (a = some false) := by
  simp [isRefused, h]

end Call

namespace Worker

/-! ### The row of calls -/

/-- The calls of a worker, the last one first, and its generator after them: the iterations count up
from one, and each call is the one of its iteration with the flags drawn for it. -/
inductive Issued (p : Plan) (g : Generator) : List Call → Generator → Prop where
  | nil : Issued p g [] g
  | cons {calls : List Call} {g' : Generator} (h : Issued p g calls g') (now : ℕ)
      (reply : Option (Reply (Option Bool))) :
      Issued p g
        (⟨calls.length + 1, now, (p.draw g').1, p.request (calls.length + 1) (p.draw g').1,
          reply⟩ :: calls)
        (p.draw g').2

/-- The reply to the last call makes no difference to what was issued. -/
lemma Issued.noteReply {p : Plan} {g g' : Generator} {c : Call} {calls : List Call}
    (h : Issued p g (c :: calls) g') (reply : Option (Reply (Option Bool))) :
    Issued p g ({ c with reply } :: calls) g' := by
  cases h with
  | cons h now _ => exact .cons h now reply

/-- Totals that count a row of calls, all of them answered. -/
structure Counted (calls : List Call) (t : Totals) : Prop where
  answered : ∀ c ∈ calls, c.isAnswered = true
  iterations : t.iterations = calls.length
  direct : t.direct = (calls.length + 1) / 2
  transactional : t.transactional = calls.length / 2
  highPriority : t.highPriority = calls.countP fun c => c.drawn.highPriority
  aborted : t.aborted = calls.countP Call.isRefused

lemma Counted.nil : Counted [] Totals.zero := by
  constructor <;> simp [Totals.zero]

/-- One more answered call, and one more sample. -/
lemma Counted.cons {calls : List Call} {t : Totals} (h : Counted calls t) {c : Call}
    {a : Option Bool} (hc : c.reply = some (.answered a)) (hi : c.iteration = calls.length + 1)
    (latency : ℕ) :
    Counted (c :: calls) (t + Totals.ofSample (sample c.iteration c.drawn latency a)) := by
  -- the kinds alternate, so each half of the calls grows at its own parity
  have hpar : Plan.kindOf (calls.length + 1) = .direct ↔ (calls.length + 1) % 2 = 1 := by
    rw [Plan.kindOf]
    split <;> simp <;> omega
  refine ⟨?_, ?_, ?_, ?_, ?_, ?_⟩
  · intro d hd
    rcases List.mem_cons.mp hd with rfl | hd
    · exact Call.isAnswered_of_reply hc
    · exact h.answered d hd
  · show t.iterations + 1 = _
    rw [h.iterations, List.length_cons]
  · show t.direct + (if Plan.kindOf c.iteration = .direct then 1 else 0) = _
    rw [h.direct, hi, List.length_cons]
    split <;> rename_i hk <;> rw [hpar] at hk <;> omega
  · show t.transactional + (if Plan.kindOf c.iteration = .transactional then 1 else 0) = _
    have hkind : Plan.kindOf (calls.length + 1) = .transactional ↔ (calls.length + 1) % 2 = 0 := by
      rw [Plan.kindOf]
      split <;> simp_all
    rw [h.transactional, hi, List.length_cons]
    split <;> rename_i hk <;> rw [hkind] at hk <;> omega
  · show t.highPriority + (if c.drawn.highPriority = true then 1 else 0) = _
    rw [h.highPriority, List.countP_cons]
  · show t.aborted + (if a = some false then 1 else 0) = _
    rw [h.aborted, List.countP_cons, Call.isRefused_of_reply hc]
    simp

/-- A pause changes none of the counts. -/
lemma Counted.pause {calls : List Call} {t : Totals} (h : Counted calls t) :
    Counted calls (t + Totals.pause) :=
  ⟨h.answered, h.iterations, h.direct, h.transactional, h.highPriority, h.aborted⟩

/-- The totals of a worker that has the given answered calls behind it and goes on: it has paused
after every multiple of the interval, and under a strict plan no guard has held it up. -/
structure Settled (p : Plan) (calls : List Call) (t : Totals) : Prop extends Counted calls t where
  pauses : t.pauses = calls.length / p.throttleInterval
  bounded : calls.length ≤ p.last
  lenient : p.strictGuard = true → ∀ c ∈ calls, c.isRefused = false

lemma Settled.nil (p : Plan) : Settled p [] Totals.zero :=
  ⟨.nil, by simp [Totals.zero], by simp, by simp⟩

/-- How the calls and the totals of a worker stand that leaves its loop with the given exit. -/
inductive Ended (p : Plan) (index : ℕ) : List Call → Totals → Exit → Prop where
  /-- All iterations were answered. -/
  | completed {calls : List Call} {t : Totals} (h : Settled p calls t)
      (hlast : calls.length = p.last) : Ended p index calls t .completed
  | cancelled {calls : List Call} {t : Totals} (h : Settled p calls t) :
      Ended p index calls t .cancelled
  /-- The last call failed and was not counted. -/
  | failed {c : Call} {calls : List Call} {t : Totals} {source : StoreError} (h : Settled p calls t)
      (hlast : calls.length < p.last) (hc : c.reply = some (.failed source)) :
      Ended p index (c :: calls) t
        (.failed (.store index (calls.length + 1) (Plan.kindOf (calls.length + 1)) source))
  /-- The guard held up the last transaction, which was counted, but no pause follows it. -/
  | guarded {c : Call} {calls : List Call} {t₀ t : Totals} (h : Settled p calls t₀)
      (hlast : calls.length < p.last) (hstrict : p.strictGuard = true)
      (hc : c.isRefused = true) (heven : (calls.length + 1) % 2 = 0)
      (hcount : Counted (c :: calls) t) (hpauses : t.pauses = calls.length / p.throttleInterval) :
      Ended p index (c :: calls) t (.failed (.guarded index (calls.length + 1)))
  /-- Nothing is said about the tally: it is not handed in. -/
  | panicked {calls : List Call} {t : Totals} (reason : String)
      (h : ∀ c ∈ calls.tail, c.isAnswered = true) : Ended p index calls t (.panicked reason)

/-! ### The invariant -/

/-- How the calls and the totals of a worker stand at its stage. -/
def Standing (p : Plan) (w : Worker) : Prop :=
  match w.stage with
  | .parked => w.calls = [] ∧ w.tally = Tally.empty
  | .looping k => k = w.calls.length + 1 ∧ Settled p w.calls w.tally.totals
  | .cleared k => k = w.calls.length + 1 ∧ k ≤ p.last ∧ Settled p w.calls w.tally.totals
  | .calling k f since => ∃ calls, w.calls = ⟨k, since, f, p.request k f, none⟩ :: calls ∧
      k = calls.length + 1 ∧ k ≤ p.last ∧ Settled p calls w.tally.totals
  | .pausing k _ => k = w.calls.length ∧ 0 < k ∧ Settled p w.calls w.tally.totals
  | .leaving e => Ended p w.index w.calls w.tally.totals e
  | .gone e => Ended p w.index w.calls w.tally.totals e

/-- The invariant of a worker whose generator was `g` at its start. -/
structure Sound (p : Plan) (g : Generator) (w : Worker) : Prop where
  issued : Issued p g w.calls w.generator
  standing : Standing p w

variable {p : Plan} {g : Generator} {w : Worker}

lemma Sound.launch (p : Plan) (entropy : ℕ → Generator) (index : ℕ) :
    Sound p (p.generator entropy index) (launch p entropy index) :=
  ⟨.nil, rfl, rfl⟩

lemma Sound.of_parked (h : Sound p g w) (hs : w.stage = .parked) :
    w.calls = [] ∧ w.tally = Tally.empty := by
  have h' := h.standing
  rwa [Standing, hs] at h'

/-- A worker at the head of its loop, or on its way from there to its call. -/
lemma Sound.of_looping (h : Sound p g w) {k : ℕ} (hs : w.stage = .looping k) :
    k = w.calls.length + 1 ∧ Settled p w.calls w.tally.totals := by
  have h' := h.standing
  rwa [Standing, hs] at h'

lemma Sound.of_cleared (h : Sound p g w) {k : ℕ} (hs : w.stage = .cleared k) :
    k = w.calls.length + 1 ∧ k ≤ p.last ∧ Settled p w.calls w.tally.totals := by
  have h' := h.standing
  rwa [Standing, hs] at h'

/-- A reply is noted with the latest call, and the other calls stay as they are. -/
lemma mem_noteReply {c d : Call} {calls : List Call} (hcalls : w.calls = c :: calls)
    {reply : Reply (Option Bool)} (hd : d ∈ (w.noteReply reply).calls) :
    d = { c with reply := some reply } ∨ d ∈ w.calls := by
  rw [noteReply, hcalls] at hd
  rcases List.mem_cons.mp hd with rfl | hd
  · exact .inl rfl
  · exact .inr (hcalls ▸ List.mem_cons_of_mem _ hd)

/-- A worker that waits for an answer: its last call has no reply, all calls before it are
settled. -/
lemma Sound.of_calling (h : Sound p g w) {k since : ℕ} {f : Flags}
    (hs : w.stage = .calling k f since) :
    ∃ calls, w.calls = ⟨k, since, f, p.request k f, none⟩ :: calls ∧
      k = calls.length + 1 ∧ k ≤ p.last ∧ Settled p calls w.tally.totals := by
  have h' := h.standing
  rwa [Standing, hs] at h'

lemma Sound.of_pausing (h : Sound p g w) {k wake : ℕ} (hs : w.stage = .pausing k wake) :
    k = w.calls.length ∧ 0 < k ∧ Settled p w.calls w.tally.totals := by
  have h' := h.standing
  rwa [Standing, hs] at h'

lemma Sound.of_leaving (h : Sound p g w) {e : Exit} (hs : w.stage = .leaving e) :
    Ended p w.index w.calls w.tally.totals e := by
  have h' := h.standing
  rwa [Standing, hs] at h'

lemma Sound.of_gone (h : Sound p g w) {e : Exit} (hs : w.stage = .gone e) :
    Ended p w.index w.calls w.tally.totals e := by
  have h' := h.standing
  rwa [Standing, hs] at h'

lemma Ended.tail_answered {index : ℕ} {calls : List Call} {t : Totals} {e : Exit}
    (h : Ended p index calls t e) : ∀ c ∈ calls.tail, c.isAnswered = true := by
  cases h with
  | completed h _ => exact fun c hc => h.answered c (List.mem_of_mem_tail hc)
  | cancelled h => exact fun c hc => h.answered c (List.mem_of_mem_tail hc)
  | failed h _ _ => exact h.answered
  | guarded h _ _ _ _ _ _ => exact h.answered
  | panicked _ h => exact h

/-- A worker issues a call only when all calls before it were answered. -/
lemma Sound.tail_answered (h : Sound p g w) : ∀ c ∈ w.calls.tail, c.isAnswered = true := by
  have hall {t : Totals} (h' : Settled p w.calls t) : ∀ c ∈ w.calls.tail, c.isAnswered = true :=
    fun c hc => h'.answered c (List.mem_of_mem_tail hc)
  cases hs : w.stage with
  | parked => simp [(h.of_parked hs).1]
  | looping k => exact hall (h.of_looping hs).2
  | cleared k => exact hall (h.of_cleared hs).2.2
  | calling k f since =>
      obtain ⟨calls, hcalls, -, -, hsettled⟩ := h.of_calling hs
      rw [hcalls]
      exact hsettled.answered
  | pausing k wake => exact hall (h.of_pausing hs).2.2
  | leaving e => exact (h.of_leaving hs).tail_answered
  | gone e => exact (h.of_gone hs).tail_answered

/-! ### The moves -/

/-- The moves of a worker under a plan. -/
inductive Moved (p : Plan) (w : Worker) : Worker → Prop where
  | release (go : Bool) : Moved p w (w.release go).1
  | check (shutdown : Bool) : Moved p w (w.check p shutdown).1
  | issue (now : ℕ) : Moved p w (w.issue p now).1
  /-- The reply is one that the request of the iteration can get. -/
  | receive (now : ℕ) (reply : Reply (Option Bool))
      (h : ∀ k f since, w.stage = .calling k f since → (p.request k f).Admits reply) :
      Moved p w (w.receive p now reply).1
  | resume : Moved p w w.resume.1
  | interrupt : Moved p w w.interrupt.1
  | finish : Moved p w w.finish.1

/-- What a worker does when its turn comes, under such signals and at such a time. -/
inductive Turned (p : Plan) (s : Signals) (now : ℕ) (w : Worker) : Worker → Prop where
  | release {go : Bool} (hs : w.stage = .parked) (hgo : s.started = some go) :
      Turned p s now w (w.release go).1
  | check {k : ℕ} (hs : w.stage = .looping k) : Turned p s now w (w.check p s.shutdown).1
  | issue {k : ℕ} (hs : w.stage = .cleared k) : Turned p s now w (w.issue p now).1
  | receive {k since : ℕ} {f : Flags} (hs : w.stage = .calling k f since)
      {reply : Reply (Option Bool)} (hadmits : (p.request k f).Admits reply) :
      Turned p s now w (w.receive p now reply).1
  | resume {k wake : ℕ} (hs : w.stage = .pausing k wake) : Turned p s now w w.resume.1
  | interrupt {k wake : ℕ} (hs : w.stage = .pausing k wake) (hshutdown : s.shutdown = true) :
      Turned p s now w w.interrupt.1
  | finish {e : Exit} (hs : w.stage = .leaving e) : Turned p s now w w.finish.1

lemma Turned.moved {s : Signals} {now : ℕ} {w' : Worker} (h : Turned p s now w w') :
    Moved p w w' := by
  cases h with
  | release hs hgo => exact .release _
  | check hs => exact .check _
  | issue hs => exact .issue _
  | receive hs hadmits =>
      refine .receive _ _ fun k' f' since' hs' => ?_
      rw [hs] at hs'
      cases hs'
      exact hadmits
  | resume hs => exact .resume
  | interrupt hs hshutdown => exact .interrupt
  | finish hs => exact .finish

lemma Sound.release (h : Sound p g w) (go : Bool) : Sound p g (w.release go).1 := by
  rw [Worker.release]
  split
  · rename_i hs
    have h' := h.standing
    rw [Standing, hs] at h'
    obtain ⟨hcalls, htally⟩ := h'
    -- a worker that was not started has nothing to its account
    have hsettled : Settled p w.calls w.tally.totals := by
      rw [hcalls, htally]
      exact .nil p
    cases go with
    | true =>
        refine ⟨h.issued, ?_, hsettled⟩
        show 1 = w.calls.length + 1
        rw [hcalls, List.length_nil]
    | false => exact ⟨h.issued, .cancelled hsettled⟩
  · exact h

lemma Sound.check (h : Sound p g w) (shutdown : Bool) : Sound p g (w.check p shutdown).1 := by
  rw [Worker.check]
  split
  · rename_i k hs
    obtain ⟨hk, hsettled⟩ := h.of_looping hs
    -- the bound is looked at before the signal
    by_cases hlast : p.maxIterations ≤ k
    · rw [if_pos hlast]
      have hlen : w.calls.length = p.last := by
        have hb := hsettled.bounded
        rw [Plan.last] at hb ⊢
        omega
      exact ⟨h.issued, .completed hsettled hlen⟩
    · rw [if_neg hlast]
      cases shutdown with
      | true => exact ⟨h.issued, .cancelled hsettled⟩
      | false =>
          refine ⟨h.issued, hk, ?_, hsettled⟩
          rw [Plan.last]
          omega
  · exact h

lemma Sound.issue (h : Sound p g w) (now : ℕ) : Sound p g (w.issue p now).1 := by
  rw [Worker.issue]
  split
  · rename_i k hs
    obtain ⟨hk, hlast, hsettled⟩ := h.of_cleared hs
    subst hk
    exact ⟨.cons h.issued now none, w.calls, rfl, rfl, hlast, hsettled⟩
  · exact h

lemma Sound.resume (h : Sound p g w) : Sound p g w.resume.1 := by
  rw [Worker.resume]
  split
  · rename_i k wake hs
    obtain ⟨hk, -, hsettled⟩ := h.of_pausing hs
    exact ⟨h.issued, by rw [hk]; rfl, hsettled⟩
  · exact h

lemma Sound.interrupt (h : Sound p g w) : Sound p g w.interrupt.1 := by
  rw [Worker.interrupt]
  split
  · rename_i k wake hs
    exact ⟨h.issued, .cancelled (h.of_pausing hs).2.2⟩
  · exact h

lemma Sound.finish (h : Sound p g w) : Sound p g w.finish.1 := by
  rw [Worker.finish]
  split
  · rename_i e hs
    exact ⟨h.issued, h.of_leaving hs⟩
  · exact h

/-- A worker goes on after an answer that was tallied: the pause is recorded where one follows. -/
lemma Sound.proceed {k now : ℕ} (hi : Issued p g w.calls w.generator) (hk : k = w.calls.length)
    (hpos : 0 < k) (hcount : Counted w.calls w.tally.totals)
    (hpauses : w.tally.totals.pauses = (k - 1) / p.throttleInterval) (hlast : k ≤ p.last)
    (hlenient : p.strictGuard = true → ∀ c ∈ w.calls, c.isRefused = false) :
    Sound p g (w.proceed p k now).1 := by
  have hstep := Plan.pauses_succ p.throttleInterval (k - 1)
  rw [Nat.sub_add_cancel hpos] at hstep
  -- the pause is counted when it begins
  rw [Worker.proceed]
  split
  · rename_i hth
    rw [if_pos hth] at hstep
    cases ht : w.tally.recordPause with
    | error o => exact ⟨hi, .panicked _ fun c hc => hcount.answered c (List.mem_of_mem_tail hc)⟩
    | ok t =>
        have htot : t.totals = w.tally.totals + Totals.pause := Tally.ofTotals?_eq_ok_iff.mp ht
        refine ⟨hi, hk, hpos, ?_⟩
        show Settled p w.calls t.totals
        rw [htot]
        refine ⟨hcount.pause, ?_, hk ▸ hlast, hlenient⟩
        show w.tally.totals.pauses + 1 = _
        rw [hpauses, ← hk, hstep]
  · rename_i hth
    rw [if_neg hth] at hstep
    refine ⟨hi, by rw [hk]; rfl, hcount, ?_, hk ▸ hlast, hlenient⟩
    show w.tally.totals.pauses = w.calls.length / p.throttleInterval
    rw [hpauses, ← hk, hstep, Nat.add_zero]

/-- A worker takes an answer that was tallied: under a strict plan it leaves when its guard held the
transaction up. -/
lemma Sound.accept {k now : ℕ} {a : Option Bool} {c : Call} {calls : List Call} {t : Totals}
    (hi : Issued p g w.calls w.generator) (hcalls : w.calls = c :: calls)
    (hc : c.reply = some (.answered a)) (hk : k = calls.length + 1) (hlast : k ≤ p.last)
    (hadmits : a.isSome = decide (k % 2 = 0)) (hbefore : Settled p calls t)
    (hcount : Counted w.calls w.tally.totals) (hpauses : w.tally.totals.pauses = t.pauses) :
    Sound p g (w.accept p k now a).1 := by
  rw [hbefore.pauses] at hpauses
  -- a call that was not refused, or whose worker is lenient, is followed by the next
  have hproceed (hlenient : p.strictGuard = true → c.isRefused = false) :
      Sound p g (w.proceed p k now).1 := by
    refine Sound.proceed hi ?_ (by omega) hcount ?_ hlast ?_
    · rw [hcalls, List.length_cons, hk]
    · rw [hpauses, hk, Nat.add_sub_cancel]
    · intro hstrict d hd
      rw [hcalls] at hd
      rcases List.mem_cons.mp hd with rfl | hd
      · exact hlenient hstrict
      · exact hbefore.lenient hstrict d hd
  rw [Worker.accept]
  by_cases ha : a = some false
  · rw [if_pos ha]
    by_cases hstrict : p.strictGuard = true
    · rw [if_pos hstrict]
      subst hk
      have heven : (calls.length + 1) % 2 = 0 := by
        rw [ha] at hadmits
        exact of_decide_eq_true hadmits.symm
      refine ⟨hi, ?_⟩
      show Ended p w.index w.calls w.tally.totals _
      rw [hcalls] at hcount ⊢
      exact .guarded hbefore (by omega) hstrict (by rw [Call.isRefused_of_reply hc, ha]; rfl) heven
        hcount hpauses
    · rw [if_neg hstrict]
      exact hproceed fun h => absurd h hstrict
  · rw [if_neg ha]
    exact hproceed fun _ => by rw [Call.isRefused_of_reply hc, decide_eq_false ha]

lemma Sound.receive (h : Sound p g w) (now : ℕ) (reply : Reply (Option Bool))
    (hadmits : ∀ k f since, w.stage = .calling k f since → (p.request k f).Admits reply) :
    Sound p g (w.receive p now reply).1 := by
  rw [Worker.receive]
  split
  · rename_i k f since hs
    obtain ⟨calls, hcalls, hk, hlast, hsettled⟩ := h.of_calling hs
    have hadm := hadmits k f since hs
    have hnoted : (w.noteReply reply).calls =
        ⟨k, since, f, p.request k f, some reply⟩ :: calls := by
      rw [noteReply, hcalls]
    have hissued : Issued p g (w.noteReply reply).calls (w.noteReply reply).generator := by
      have hi := h.issued
      rw [hcalls] at hi
      rw [hnoted]
      exact hi.noteReply (some reply)
    -- every earlier call was answered, whatever becomes of the latest
    have hbefore : ∀ c ∈ (w.noteReply reply).calls.tail, c.isAnswered = true := by
      rw [hnoted]
      exact hsettled.answered
    cases reply with
    | crashed payload => exact ⟨hissued, .panicked _ hbefore⟩
    | failed source =>
        refine ⟨hissued, ?_⟩
        show Ended p w.index (w.noteReply (.failed source)).calls w.tally.totals _
        rw [hnoted]
        subst hk
        exact .failed hsettled (by omega) rfl
    | answered a =>
        dsimp only
        cases ht : (w.noteReply (.answered a)).tally.consume (sample k f (now - since) a) with
        | error o => exact ⟨hissued, .panicked _ hbefore⟩
        | ok t =>
            have htot : t.totals = w.tally.totals + Totals.ofSample (sample k f (now - since) a) :=
              Tally.ofTotals?_eq_ok_iff.mp ht
            refine Sound.accept (t := w.tally.totals) hissued hnoted rfl hk hlast ?_ hsettled ?_ ?_
            · rw [← Plan.isTransaction_request p k f]
              exact hadm
            · show Counted (w.noteReply (.answered a)).calls t.totals
              rw [hnoted, htot]
              exact hsettled.toCounted.cons
                (c := ⟨k, since, f, p.request k f, some (.answered a)⟩) rfl hk _
            · show t.totals.pauses = _
              rw [htot]
              rfl
  · exact h

/-- **Every move keeps the invariant.** -/
theorem Sound.moved (h : Sound p g w) {w' : Worker} (hm : Moved p w w') : Sound p g w' := by
  cases hm with
  | release go => exact h.release go
  | check shutdown => exact h.check shutdown
  | issue now => exact h.issue now
  | receive now reply hadmits => exact h.receive now reply hadmits
  | resume => exact h.resume
  | interrupt => exact h.interrupt
  | finish => exact h.finish

end Worker

end StoreSoak
