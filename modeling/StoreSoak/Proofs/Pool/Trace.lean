import StoreSoak.Proofs.Store.Log
import StoreSoak.Proofs.Worker.Draws

/-!
What a store sees of a worker, and what the worker reports.

The trace of a worker is read off the log of the store, which the worker knows nothing of. The calls
that the worker keeps are the same as its trace, so that what its invariant says about the calls is
true of the trace.

* `trace` is the row of calls of a worker that came back, in their order.
* `Recorded`: the invariant that ties the log of a store to the calls of the workers.
* `Accounted`: a report that agrees with a trace, with the `Ending` that it tells of.
* `accounted`: the trace of every worker is in order at every moment, and its report agrees with it.
-/

namespace StoreSoak

/-! ### Calls on both sides -/

/-- The call of the given worker in a use of a store. -/
def Access.servedTo? (i : ℕ) : Access → Option Served
  | .served s => if s.caller.worker = i then some s else none
  | .lookedUp _ => none
  | .closed => none

namespace Served

/-- Whether the store gave an answer. -/
def isAnswered (s : Served) : Bool :=
  s.reply.isAnswered

/-- Whether the store answered that the guard did not hold. -/
def isRefused (s : Served) : Bool :=
  s.reply = .answered (some false)

end Served

/-- The calls on a database in their order: what a plan issues for a worker, one call for each
iteration, with the flags of some draw. -/
def Plan.InOrder (p : Plan) (i : ℕ) (row : List Served) : Prop :=
  ∀ (k : ℕ) (s : Served), row[k]? = some s → s.caller = ⟨i, k + 1⟩ ∧
    ∃ f, (f = Flags.none ∨ f = Flags.urgent) ∧
      s.request = if (k + 1) % 2 = 1 then .set p.sharedKey p.payload f
        else .execute ⟨[.absent p.guardKey], [⟨p.sharedKey, p.payload, f.union Flags.forgetful⟩]⟩

namespace Plan

/-- A draw selects the high priority or nothing. -/
lemma draw_flags (p : Plan) (g : Generator) :
    (p.draw g).1 = Flags.none ∨ (p.draw g).1 = Flags.urgent := by
  simp only [draw, Draw.flagsOf]
  split
  · exact .inr rfl
  · exact .inl rfl

end Plan

/-- A worker's call as the store saw it, once it came back. -/
def Call.served? (i : ℕ) (c : Call) : Option Served :=
  c.reply.map fun r => ⟨⟨i, c.iteration⟩, c.request, r⟩

lemma Call.served?_of_reply (i : ℕ) {c : Call} {r : Reply (Option Bool)} (h : c.reply = some r) :
    c.served? i = some ⟨⟨i, c.iteration⟩, c.request, r⟩ := by
  rw [served?, h, Option.map_some]

namespace Worker

variable {p : Plan} {g g' : Generator} {calls : List Call} {i : ℕ}

/-- Each call that was issued is the one of its iteration. -/
lemma Issued.request (h : Issued p g calls g') {c : Call} (hc : c ∈ calls) :
    c.request = p.request c.iteration c.drawn := by
  induction h with
  | nil => exact absurd hc (by simp)
  | cons _ _ _ ih =>
      rcases List.mem_cons.mp hc with rfl | hc
      · rfl
      · exact ih hc

/-- Answered calls are all seen by the store. -/
lemma length_served (h : ∀ c ∈ calls, c.isAnswered = true) :
    (calls.filterMap (Call.served? i)).length = calls.length := by
  rw [← List.countP_true, List.countP_filterMap, List.countP_eq_length]
  intro c hc
  have hans := h c hc
  cases hr : c.reply with
  | none => simp [Call.isAnswered, hr] at hans
  | some r => simp [Call.served?, hr]

/-- The calls that came back are in order as the store saw them. -/
lemma Issued.inOrder (h : Issued p g calls g') (htail : ∀ c ∈ calls.tail, c.isAnswered = true) :
    p.InOrder i (calls.filterMap (Call.served? i)).reverse := by
  induction h with
  | nil =>
      intro k s hs
      simp at hs
  | @cons calls g' h now reply ih =>
      have hans : ∀ c ∈ calls, c.isAnswered = true := htail
      have hbefore := ih fun c hc => hans c (List.mem_of_mem_tail hc)
      cases reply with
      | none => exact hbefore
      | some r =>
          intro k s hs
          have hlen := length_served (i := i) hans
          simp only [List.filterMap_cons, Call.served?, Option.map_some, List.reverse_cons] at hs
          rcases Nat.lt_trichotomy k calls.length with hk | rfl | hk
          · rw [List.getElem?_append_left (by rwa [List.length_reverse, hlen])] at hs
            exact hbefore k s hs
          · rw [List.getElem?_append_right (by rw [List.length_reverse, hlen]), List.length_reverse,
              hlen, Nat.sub_self] at hs
            cases hs
            exact ⟨rfl, (p.draw g').1, p.draw_flags g', p.request_eq _ _⟩
          · rw [List.getElem?_eq_none (by simp [hlen]; omega)] at hs
            exact absurd hs (by simp)

/-- Totals that count the answered ones among calls. -/
structure Tallied (calls : List Call) (t : Totals) : Prop where
  iterations : t.iterations = calls.countP Call.isAnswered
  direct : t.direct = (t.iterations + 1) / 2
  transactional : t.transactional = t.iterations / 2
  highPriority : t.highPriority = calls.countP fun c => c.isAnswered && c.drawn.highPriority
  aborted : t.aborted = calls.countP Call.isRefused

lemma Counted.tallied {t : Totals} (h : Counted calls t) : Tallied calls t := by
  refine ⟨?_, ?_, ?_, ?_, h.aborted⟩
  · rw [h.iterations, eq_comm, List.countP_eq_length]
    exact h.answered
  · rw [h.direct, h.iterations]
  · rw [h.transactional, h.iterations]
  · rw [h.highPriority]
    refine List.countP_congr fun c hc => ?_
    rw [h.answered c hc, Bool.true_and]

/-- A last call without an answer is not counted. -/
lemma Tallied.cons {t : Totals} (h : Tallied calls t) {c : Call} (hc : c.isAnswered = false) :
    Tallied (c :: calls) t := by
  have hrefused : c.isRefused = false := by
    rw [Call.isRefused, decide_eq_false_iff_not]
    intro hr
    rw [Call.isAnswered_of_reply hr] at hc
    exact absurd hc (by simp)
  refine ⟨?_, h.direct, h.transactional, ?_, ?_⟩
  · rw [h.iterations, List.countP_cons_of_neg (by simp [hc])]
  · rw [h.highPriority, List.countP_cons_of_neg (by simp [hc])]
  · rw [h.aborted, List.countP_cons_of_neg (by simp [hrefused])]

/-- However a worker leaves with its tally, the tally counts its answered calls. -/
lemma Ended.tallied {index : ℕ} {t : Totals} {e : Exit} (h : Ended p index calls t e)
    (hpanic : ∀ reason, e ≠ .panicked reason) : Tallied calls t := by
  cases h with
  | completed h _ => exact h.tallied
  | cancelled h => exact h.tallied
  | failed h _ hc => exact h.tallied.cons (by rw [Call.isAnswered, hc]; rfl)
  | guarded _ _ _ _ _ hcount _ => exact hcount.tallied
  | panicked reason _ => exact absurd rfl (hpanic reason)

end Worker

/-! ### Reports -/

/-- The ways in which a report can tell of the end of a worker. -/
inductive Ending where
  | completed
  | cancelled
  | storeFailed
  | guardFailed
  deriving DecidableEq

/-- What a report tells of a worker that ended so, and how its trace stands then. -/
def Ending.Fits (p : Plan) (row : List Served) (r : WorkerReport) : Ending → Prop
  | .completed =>
    r.cancelled = false ∧ r.failure = none ∧ row.length = r.tally.totals.iterations ∧
      r.tally.totals.iterations = p.last ∧
      r.tally.totals.pauses = r.tally.totals.iterations / p.throttleInterval
  | .cancelled =>
    r.cancelled = true ∧ r.failure = none ∧ row.length = r.tally.totals.iterations ∧
      r.tally.totals.iterations ≤ p.last ∧
      r.tally.totals.pauses = r.tally.totals.iterations / p.throttleInterval
  | .storeFailed =>
    r.cancelled = false ∧ row.length = r.tally.totals.iterations + 1 ∧
      r.tally.totals.iterations < p.last ∧
      (∃ s source, row.getLast? = some s ∧ s.reply = .failed source ∧
        r.failure = some (.store r.index (r.tally.totals.iterations + 1)
          (if (r.tally.totals.iterations + 1) % 2 = 1 then .direct else .transactional) source)) ∧
      r.tally.totals.pauses = r.tally.totals.iterations / p.throttleInterval
  | .guardFailed =>
    r.cancelled = false ∧ row.length = r.tally.totals.iterations ∧
      r.tally.totals.iterations ≤ p.last ∧ p.strictGuard = true ∧ r.tally.totals.aborted = 1 ∧
      r.tally.totals.iterations % 2 = 0 ∧
      (∃ s, row.getLast? = some s ∧ s.isRefused = true ∧
        r.failure = some (.guarded r.index r.tally.totals.iterations)) ∧
      r.tally.totals.pauses = (r.tally.totals.iterations - 1) / p.throttleInterval

/-- A report that agrees with a trace: its counters are those of the answered calls, and it tells of
exactly one ending. -/
structure Accounted (p : Plan) (row : List Served) (r : WorkerReport) : Prop where
  iterations : r.tally.totals.iterations = row.countP Served.isAnswered
  direct : r.tally.totals.direct = (r.tally.totals.iterations + 1) / 2
  transactional : r.tally.totals.transactional = r.tally.totals.iterations / 2
  highPriority : r.tally.totals.highPriority =
    row.countP fun s => s.isAnswered && s.request.flags.highPriority
  aborted : r.tally.totals.aborted = row.countP Served.isRefused
  ending : ∃! e : Ending, e.Fits p row r

/-- A report tells of one ending at most. -/
lemma Ending.Fits.unique {p : Plan} {row : List Served} {r : WorkerReport} {e e' : Ending}
    (h : e.Fits p row r) (h' : e'.Fits p row r) : e = e' := by
  cases e <;> cases e' <;> simp only [Fits] at h h' <;> first | rfl | (exfalso; grind)

namespace Worker

variable {p : Plan} {g : Generator} {calls : List Call} {i : ℕ}

/-- What came back of the calls that a worker keeps, in their order. -/
def row (w : Worker) : List Served :=
  (w.calls.filterMap (Call.served? w.index)).reverse

/-- A count over the row of a worker is a count over its calls. -/
lemma countP_row (w : Worker) {f : Served → Bool} {f' : Call → Bool}
    (h : ∀ c ∈ w.calls, ((c.served? w.index).map f).getD false = f' c) :
    w.row.countP f = w.calls.countP f' := by
  rw [row, List.countP_reverse, List.countP_filterMap]
  refine List.countP_congr fun c hc => ?_
  rw [h c hc]

/-- The row of a worker ends with its latest call, once that came back. -/
lemma row_of_cons {w : Worker} {c : Call} {r : Reply (Option Bool)} (hcalls : w.calls = c :: calls)
    (hc : c.reply = some r) :
    w.row = (calls.filterMap (Call.served? w.index)).reverse ++
      [⟨⟨w.index, c.iteration⟩, c.request, r⟩] := by
  rw [row, hcalls, List.filterMap_cons_some (Call.served?_of_reply w.index hc), List.reverse_cons]

/-- The calls that a count has taken up are all in the row. -/
lemma Settled.length_seen {t : Totals} (h : Settled p calls t) :
    (calls.filterMap (Call.served? i)).reverse.length = t.iterations := by
  rw [List.length_reverse, length_served h.answered, h.iterations]

lemma Settled.pauses_eq {t : Totals} (h : Settled p calls t) :
    t.pauses = t.iterations / p.throttleInterval := by
  rw [h.pauses, h.iterations]

/-- A worker leaves after its last iteration. -/
lemma Settled.completed_fits {w : Worker} (h : Settled p w.calls w.tally.totals)
    (hlast : w.calls.length = p.last) :
    Ending.Fits p w.row (w.reportOf .completed) .completed :=
  ⟨rfl, rfl, h.length_seen, h.iterations.trans hlast, h.pauses_eq⟩

/-- A worker leaves at the shutdown. -/
lemma Settled.cancelled_fits {w : Worker} (h : Settled p w.calls w.tally.totals) :
    Ending.Fits p w.row (w.reportOf .cancelled) .cancelled :=
  ⟨rfl, rfl, h.length_seen, h.iterations.trans_le h.bounded, h.pauses_eq⟩

/-- A worker leaves because its latest call failed. -/
lemma Settled.failed_fits {w : Worker} {c : Call} {source : StoreError}
    (h : Settled p calls w.tally.totals) (hcalls : w.calls = c :: calls)
    (hlast : calls.length < p.last) (hc : c.reply = some (.failed source)) :
    Ending.Fits p w.row (w.reportOf (.failed (.store w.index (calls.length + 1)
      (Plan.kindOf (calls.length + 1)) source))) .storeFailed := by
  have hrow := row_of_cons hcalls hc
  refine ⟨rfl, ?_, ?_, ⟨⟨⟨w.index, c.iteration⟩, c.request, .failed source⟩, source, ?_, rfl, ?_⟩,
    h.pauses_eq⟩
  · rw [hrow, List.length_append, h.length_seen]
    rfl
  · show w.tally.totals.iterations < p.last
    rwa [h.iterations]
  · rw [hrow, List.getLast?_concat]
  · show some (WorkerError.store w.index (calls.length + 1) (Plan.kindOf (calls.length + 1))
          source) = some (.store w.index (w.tally.totals.iterations + 1)
          (if (w.tally.totals.iterations + 1) % 2 = 1 then .direct else .transactional) source)
    rw [h.iterations, Plan.kindOf]
    rcases Nat.mod_two_eq_zero_or_one (calls.length + 1) with h | h <;> simp [h]

/-- A worker leaves because the guard held up its latest transaction. Only the earlier calls are
settled, since no pause follows the one that is counted last. -/
lemma Settled.guarded_fits {w : Worker} {c : Call} {t₀ : Totals} (h : Settled p calls t₀)
    (hcalls : w.calls = c :: calls) (hlast : calls.length < p.last) (hstrict : p.strictGuard = true)
    (hc : c.isRefused = true) (heven : (calls.length + 1) % 2 = 0)
    (hcount : Counted (c :: calls) w.tally.totals)
    (hpauses : w.tally.totals.pauses = calls.length / p.throttleInterval) :
    Ending.Fits p w.row (w.reportOf (.failed (.guarded w.index (calls.length + 1))))
      .guardFailed := by
  have hiterations : w.tally.totals.iterations = calls.length + 1 := hcount.iterations
  have hrow := row_of_cons hcalls (of_decide_eq_true hc)
  refine ⟨rfl, ?_, ?_, hstrict, ?_, ?_,
    ⟨⟨⟨w.index, c.iteration⟩, c.request, .answered (some false)⟩, ?_, rfl, ?_⟩, ?_⟩
  · show _ = w.tally.totals.iterations
    rw [hrow, List.length_append, h.length_seen, h.iterations, hiterations]
    rfl
  · show w.tally.totals.iterations ≤ p.last
    rwa [hiterations]
  · show w.tally.totals.aborted = 1
    -- a strict worker has not been held up before
    have hnone : calls.countP Call.isRefused = 0 := by
      rw [List.countP_eq_zero]
      intro d hd
      rw [h.lenient hstrict d hd]
      exact Bool.false_ne_true
    rw [hcount.aborted, List.countP_cons_of_pos hc, hnone]
  · show w.tally.totals.iterations % 2 = 0
    rwa [hiterations]
  · rw [hrow, List.getLast?_concat]
  · show some (WorkerError.guarded w.index (calls.length + 1))
      = some (.guarded w.index w.tally.totals.iterations)
    rw [hiterations]
  · show w.tally.totals.pauses = (w.tally.totals.iterations - 1) / p.throttleInterval
    rw [hpauses, hiterations, Nat.add_sub_cancel]

/-- A worker that leaves with its tally has come to one of the four endings. -/
lemma Ended.fits {w : Worker} {e : Exit} (h : Ended p w.index w.calls w.tally.totals e)
    (hpanic : ∀ reason, e ≠ .panicked reason) :
    ∃ end', Ending.Fits p w.row (w.reportOf e) end' := by
  -- the endings speak of the calls as a list, those of the worker are a field
  generalize hcalls : w.calls = calls at h
  generalize htotals : w.tally.totals = t at h
  cases h with
  | completed h hlast =>
      subst hcalls htotals
      exact ⟨_, h.completed_fits hlast⟩
  | cancelled h =>
      subst hcalls htotals
      exact ⟨_, h.cancelled_fits⟩
  | failed h hlast hc =>
      subst htotals
      exact ⟨_, h.failed_fits hcalls hlast hc⟩
  | guarded h hlast hstrict hc heven hcount hpauses =>
      subst htotals
      exact ⟨_, h.guarded_fits hcalls hlast hstrict hc heven hcount hpauses⟩
  | panicked reason _ => exact absurd rfl (hpanic reason)

/-- The report of a sound worker that left with its tally agrees with its row. -/
lemma Sound.accounted {w : Worker} (h : Sound p g w) {e : Exit} (hs : w.stage = .gone e)
    (hpanic : ∀ reason, e ≠ .panicked reason) : Accounted p w.row (w.reportOf e) := by
  have hended := h.of_gone hs
  have htally : (w.reportOf e).tally = w.tally := by
    cases e with
    | panicked reason => exact absurd rfl (hpanic reason)
    | _ => rfl
  have htallied := hended.tallied hpanic
  obtain ⟨ending, hfits⟩ := hended.fits hpanic
  refine ⟨?_, ?_, ?_, ?_, ?_, ending, hfits, fun e' he' => he'.unique hfits⟩
  · rw [htally, htallied.iterations, countP_row w]
    intro c _
    rw [Call.served?, Call.isAnswered]
    cases c.reply <;> rfl
  · rw [htally, htallied.direct]
  · rw [htally, htallied.transactional]
  · rw [htally, htallied.highPriority, countP_row w]
    intro c hc
    rw [← Plan.highPriority_request p c.iteration, ← h.issued.request hc, Call.served?,
      Call.isAnswered]
    cases c.reply <;> rfl
  · rw [htally, htallied.aborted, countP_row w]
    intro c _
    rw [Call.served?, Call.isRefused]
    cases c.reply <;> simp [Served.isRefused]

end Worker

/-! ### The log and the calls -/

namespace Worker

/-- A worker that takes a reply notes it, and leaves its calls alone otherwise. -/
lemma calls_receive (p : Plan) (w : Worker) (now : ℕ) (reply : Reply (Option Bool)) {k since : ℕ}
    {f : Flags} (hs : w.stage = .calling k f since) :
    (w.receive p now reply).1.calls = (w.noteReply reply).calls := by
  have hproceed (v : Worker) : (v.proceed p k now).1.calls = v.calls := by
    rw [proceed]
    split
    · split <;> rfl
    · rfl
  have haccept (v : Worker) (a : Option Bool) : (v.accept p k now a).1.calls = v.calls := by
    rw [accept]
    split
    · split
      · rfl
      · exact hproceed v
    · exact hproceed v
  simp only [receive, hs]
  cases reply with
  | crashed payload => rfl
  | failed source => rfl
  | answered a =>
      dsimp only
      split
      · rfl
      · exact haccept _ _

end Worker

namespace Pool

variable {σ : Type}

/-- The calls of a worker that came back at the store, in the order in which the store served
them. -/
def trace (db : Database σ) (p : Pool σ) (events : List Event) (i : ℕ) : List Served :=
  (((p.logged []).run db.logged events).store.log.filterMap (Access.servedTo? i)).reverse

/-- The log holds of each worker the calls that came back. -/
def Recorded (p : Pool (Logged σ)) : Prop :=
  ∀ (i : ℕ) (w : Worker), p.workers[i]? = some w →
    p.store.log.filterMap (Access.servedTo? i) = w.calls.filterMap (Call.served? i)

section Recorded

variable {plan : Plan} {entropy : ℕ → Generator} {db : Database σ} {p p' : Pool (Logged σ)}
  {e : Event}

/-- A move that shows the store the same calls as before keeps the log right. -/
lemma Recorded.of_eq (h : Recorded p) {i : ℕ} {w v : Worker} (hw : p.workers[i]? = some w)
    (hv : v.calls.filterMap (Call.served? i) = w.calls.filterMap (Call.served? i))
    (hworkers : p'.workers = p.workers.setIfInBounds i v) (hstore : p'.store = p.store) :
    Recorded p' := by
  intro j u hu
  rw [hworkers, getElem?_replace hw] at hu
  rw [hstore]
  split at hu
  · rename_i hij
    cases hu
    subst hij
    rw [hv]
    exact h i w hw
  · exact h j u hu

/-- A call that comes back is noted on both sides. -/
lemma Recorded.receive (h : Recorded p) (hl : Launched plan entropy p) {i k since : ℕ} {f : Flags}
    {w : Worker} (hw : p.workers[i]? = some w) (hs : w.stage = .calling k f since)
    {r : Reply (Option Bool) × Logged σ}
    (hr : (p.plan.request k f).perform db.logged ⟨w.index, k⟩ p.store = r) :
    Recorded ({ p with store := r.2 }.put i (w.receive p.plan p.now r.1)) := by
  rw [Request.perform_logged] at hr
  obtain ⟨calls, hcalls, -, -, -⟩ := (hl.sound hw).of_calling hs
  have hnoted : (w.noteReply r.1).calls = ⟨k, since, f, plan.request k f, some r.1⟩ :: calls := by
    rw [Worker.noteReply, hcalls]
  intro j u hu
  rw [put_workers, getElem?_replace hw] at hu
  rw [put_store]
  show r.2.log.filterMap _ = _
  rw [← hr]
  split at hu
  · rename_i hij
    cases hu
    subst hij
    have hbefore := h i w hw
    rw [hcalls, List.filterMap_cons_none (by rfl)] at hbefore
    rw [Worker.calls_receive _ _ _ _ hs, hnoted, ← hr, hl.plan_eq, hl.index hw,
      List.filterMap_cons_some (Call.served?_of_reply i rfl), ← hbefore]
    exact List.filterMap_cons_some (if_pos rfl)
  · rename_i hij
    rw [← h j u hu]
    refine List.filterMap_cons_none (if_neg ?_)
    rw [hl.index hw]
    exact hij

/-- Every event keeps the log right. -/
lemma Recorded.stepped (h : Recorded p) (hl : Launched plan entropy p)
    (hs : Stepped db.logged p e p') : Recorded p' := by
  cases hs with
  | tick d => exact h
  | start => exact h
  | cancel =>
      intro i w hw
      rw [requestShutdown_workers] at hw
      rw [requestShutdown_store]
      exact h i w hw
  | dropLifecycle => exact h
  | idle => exact h
  | @release i w go hw hs hgo =>
      refine h.of_eq (v := (w.release go).1) hw ?_ rfl rfl
      rw [Worker.release]
      split <;> (try split) <;> rfl
  | @check i k w hw hs =>
      refine h.of_eq (v := (w.check p.plan p.signals.shutdown).1) hw ?_ rfl rfl
      rw [Worker.check]
      split <;> (try split) <;> (try split) <;> rfl
  | @issue i k w hw hs =>
      refine h.of_eq (v := (w.issue p.plan p.now).1) hw ?_ rfl rfl
      -- the call that was issued has no reply yet
      simp only [Worker.issue, hs]
      exact List.filterMap_cons_none rfl
  | receive hw hs hr => exact h.receive hl hw hs hr
  | @resume i k wake w hw hs hwake =>
      refine h.of_eq (v := w.resume.1) hw ?_ rfl rfl
      rw [Worker.resume]
      split <;> rfl
  | @retire i w e hw hs =>
      refine h.of_eq (v := w.finish.1) hw ?_ (retire_workers ..) (retire_store ..)
      rw [Worker.finish]
      split <;> rfl
  | @interrupt i w hw hshutdown =>
      refine h.of_eq (v := w.interrupt.1) hw ?_ rfl rfl
      rw [Worker.interrupt]
      split <;> rfl

end Recorded

/-- After a run the trace of a worker is the row of its calls that came back. -/
lemma trace_eq_row (db : Database σ) (plan : Plan) (policy : FailurePolicy) (count : ℕ)
    (entropy : ℕ → Generator) (store : σ) (events : List Event) {i : ℕ} {w : Worker}
    (hw : ((launch plan policy count entropy store).run db events).workers[i]? = some w) :
    w.Sound plan (plan.generator entropy i) ∧ w.index = i ∧
      (launch plan policy count entropy store).trace db events i = w.row := by
  -- the log is followed beside the pool: each step adds to the row of its worker what it logs
  have hstart : Launched plan entropy ((launch plan policy count entropy store).logged []) ∧
      Recorded ((launch plan policy count entropy store).logged []) := by
    have hl := Launched.launch plan policy count entropy store
    refine ⟨⟨rfl, fun h => hl.index h, fun h => hl.sound h⟩, ?_⟩
    intro j v hv
    rw [(launch_workers plan policy count entropy store hv).2]
    rfl
  have hend :
      Launched plan entropy
          (((launch plan policy count entropy store).logged []).run db.logged events) ∧
        Recorded (((launch plan policy count entropy store).logged []).run db.logged events) :=
    run_induction (P := fun q => Launched plan entropy q ∧ Recorded q)
      (fun h hs => ⟨h.1.stepped hs, h.2.stepped h.1 hs⟩) hstart events
  obtain ⟨hl, hr⟩ := hend
  rw [← plain_logged (launch plan policy count entropy store) [], ← run_plain] at hw
  have hindex : w.index = i := hl.index hw
  refine ⟨hl.sound hw, hindex, ?_⟩
  rw [trace, hr i w hw, Worker.row, hindex]

/-- **A report agrees with the trace of its worker**, whatever the store answers and whenever a
shutdown is noticed: at every moment the trace is the row of calls of the iterations one, two, three
and so on, and what a worker reports that did not break down can be told from it. -/
theorem report_agrees_with_trace (db : Database σ) (plan : Plan) (policy : FailurePolicy)
    (count : ℕ) (entropy : ℕ → Generator) (store : σ) (events : List Event) (i : ℕ) (w : Worker)
    (hw : ((launch plan policy count entropy store).run db events).workers[i]? = some w) :
    plan.InOrder i ((launch plan policy count entropy store).trace db events i) ∧
      ∀ r, w.report? = some r → (∀ reason, r.failure ≠ some (.panicked i reason)) →
        r.index = i ∧
          Accounted plan ((launch plan policy count entropy store).trace db events i) r := by
  obtain ⟨hsound, hindex, htrace⟩ :=
    trace_eq_row db plan policy count entropy store events hw
  rw [htrace]
  refine ⟨?_, ?_⟩
  · rw [Worker.row, hindex]
    exact hsound.issued.inOrder hsound.tail_answered
  · intro r hr hpanic
    -- only a worker that is gone has a report
    obtain ⟨e, hs, hre⟩ : ∃ e, w.stage = .gone e ∧ w.reportOf e = r := by
      rw [Worker.report?] at hr
      split at hr
      · rename_i e hs
        exact ⟨e, hs, Option.some.inj hr⟩
      · exact absurd hr (by simp)
    have hexit : ∀ reason, e ≠ .panicked reason := by
      rintro reason rfl
      refine hpanic reason ?_
      rw [← hre, ← hindex]
      rfl
    rw [← hre]
    exact ⟨hindex, hsound.accounted hs hexit⟩

/-- A strict worker at a store that holds the guard: its second call is held up. -/
theorem report_agrees_with_trace_at_held_guard :
    let plan : Plan := ⟨"shared", "guard", "value", 5, 1, Duration.ofSeconds 0, 2, true, none⟩
    let p := launch plan .abort 1 (fun _ => ⟨Key.ofSeed 0, 0, [0, 0x80000000]⟩)
      (Memory.fresh.withKeyspace 0 (Table.empty.insert "guard" "held"))
    let events := .start :: List.replicate 9 (.turn 0)
    ∃ w r, (p.run (Memory.databaseOf 0) events).workers[0]? = some w ∧ w.report? = some r ∧
      r.failure = some (.guarded 0 2) ∧ r.tally.totals.highPriority = 1 ∧
      Accounted plan (p.trace (Memory.databaseOf 0) events 0) r := by
  intro plan p events
  have hend : ((p.run (Memory.databaseOf 0) events).workers[0]?.bind fun w => w.report?.map fun r =>
      (r.failure, r.tally.totals.highPriority)) = some (some (.guarded 0 2), 1) := by
    decide +kernel
  obtain ⟨w, hw, hr⟩ := Option.bind_eq_some_iff.mp hend
  obtain ⟨r, hr, hpair⟩ := Option.map_eq_some_iff.mp hr
  obtain ⟨hfailure, hpriority⟩ := Prod.mk.inj hpair
  refine ⟨w, r, hw, hr, hfailure, hpriority, ?_⟩
  have hpanic : ∀ reason, r.failure ≠ some (.panicked 0 reason) := by
    rw [hfailure]
    intro reason h
    cases h
  exact ((report_agrees_with_trace _ plan .abort 1 _ _ events 0 w hw).2 r hr hpanic).2

end Pool

end StoreSoak
