import StoreSoak.Proofs.Pool.Causes
import StoreSoak.Proofs.Measure.Totals
import StoreSoak.Rehearsal

/-!
What the reports of a pool tell of its calls.

The report of a pool counts the calls that the store has answered to its workers, of each worker
that hands its tally in. A worker that breaks down has none to hand in, so that the calls that were
answered to it before are lost.

* `served` are the calls of all workers in the order in which the store served them, and
  `perm_flatMap_filter` takes them worker by worker.
* `Totals.Counts`: totals that count the answered calls of a row, its sets and its transactions.
* `Worker.Sound.counts`: the tally that a worker hands in counts the calls that were answered to it.
* `reports_count_answers`: what the report of a whole pool counts. `answers_lost_in_breakdown` is a
  pool in which an answer is lost.
-/

namespace StoreSoak

/-! ### Rows of optional values -/

/-- A row of answers is there when each of them is, and holds them in their order. -/
lemma mapM_eq_some_iff {α β : Type} {f : α → Option β} {as : List α} {bs : List β} :
    as.mapM f = some bs ↔ as.map f = bs.map some := by
  induction as generalizing bs with
  | nil => cases bs <;> simp
  | cons a as ih =>
      rw [List.mapM_cons, List.map_cons]
      cases ha : f a with
      | none => cases bs <;> simp
      | some b =>
          cases has : as.mapM f with
          | none =>
              -- a row that breaks off later has no result either
              have hnone (cs : List β) : as.map f ≠ cs.map some := fun h => by
                rw [ih.mpr h] at has
                cases has
              cases bs with
              | nil => simp
              | cons b' bs => simp [hnone bs]
          | some cs =>
              rw [ih.mp has]
              cases bs with
              | nil => simp
              | cons b' bs => simp [(Option.some_injective β).list_map.eq_iff]

/-- A row of answers is there when each of them is. -/
lemma exists_mapM_eq_some {α β : Type} {f : α → Option β} {as : List α}
    (h : ∀ a ∈ as, ∃ b, f a = some b) : ∃ bs, as.mapM f = some bs := by
  induction as with
  | nil => exact ⟨[], rfl⟩
  | cons a as ih =>
      obtain ⟨b, hb⟩ := h a List.mem_cons_self
      obtain ⟨bs, hbs⟩ := ih fun c hc => h c (List.mem_cons_of_mem a hc)
      exact ⟨b :: bs, by rw [List.mapM_cons, hb, hbs]; rfl⟩

/-- A row of values is the row of those at its places. -/
lemma map_eq_map_range {α β : Type} (as : List α) (f : α → β) (b : β) :
    as.map f = (List.range as.length).map fun i => (as[i]?.map f).getD b := by
  refine List.ext_getElem (by simp) fun i hi hi' => ?_
  rw [List.length_map] at hi
  simp [List.getElem?_eq_getElem hi]

/-- A row of values is the rows of those at each place, one after the other, but for the order. -/
lemma perm_flatMap_filter {α : Type} {key : α → ℕ} {n : ℕ} {as : List α}
    (h : ∀ a ∈ as, key a < n) :
    ((List.range n).flatMap fun i => as.filter fun a => key a = i).Perm as := by
  -- by induction on the bound: the elements with the greatest key are put at the end
  induction n generalizing as with
  | zero =>
      rw [List.eq_nil_iff_forall_not_mem.mpr fun a ha => absurd (h a ha) (Nat.not_lt_zero _)]
      exact .refl _
  | succ n ih =>
      rw [List.range_succ, List.flatMap_append, List.flatMap_singleton]
      have hbelow : ∀ a ∈ as.filter (fun a => !decide (key a = n)), key a < n := by
        intro a ha
        obtain ⟨hmem, hne⟩ := List.mem_filter.mp ha
        have hlt := h a hmem
        simp only [Bool.not_eq_true', decide_eq_false_iff_not] at hne
        omega
      have hsame : ((List.range n).flatMap fun i => as.filter fun a => key a = i) =
          (List.range n).flatMap fun i =>
            (as.filter fun a => !decide (key a = n)).filter fun a => key a = i := by
        refine List.flatMap_congr fun i hi => ?_
        rw [List.filter_filter]
        refine List.filter_congr fun a _ => ?_
        have hi' := List.mem_range.mp hi
        by_cases ha : key a = i
        · simp [ha, Nat.ne_of_lt hi']
        · simp [ha]
      rw [hsame]
      exact ((ih hbelow).append_right _).trans (List.perm_append_comm.trans
        (List.filter_append_perm _ as))

/-! ### Totals of answered calls -/

/-- The call in a use of a store. -/
def Access.served? : Access → Option Served
  | .served s => some s
  | .lookedUp _ => none
  | .closed => none

lemma Access.servedTo?_eq (i : ℕ) (a : Access) :
    a.servedTo? i = a.served?.filter fun s => s.caller.worker = i := by
  cases a with
  | served s =>
      rw [servedTo?, served?, Option.filter_some]
      simp only [decide_eq_true_eq]
  | lookedUp key => rfl
  | closed => rfl

namespace Served

/-- Whether the store answered a set. -/
def isSet (s : Served) : Bool :=
  s.isAnswered && !s.request.isTransaction

/-- Whether the store answered a transaction. -/
def isTransaction (s : Served) : Bool :=
  s.isAnswered && s.request.isTransaction

end Served

/-- Totals that count the answered calls of a row. -/
structure Totals.Counts (t : Totals) (row : List Served) : Prop where
  iterations : t.iterations = row.countP Served.isAnswered
  direct : t.direct = row.countP Served.isSet
  transactional : t.transactional = row.countP Served.isTransaction

lemma Totals.Counts.zero : Totals.Counts 0 [] :=
  ⟨rfl, rfl, rfl⟩

lemma Totals.Counts.add {t u : Totals} {row row' : List Served} (h : t.Counts row)
    (h' : u.Counts row') : (t + u).Counts (row ++ row') := by
  refine ⟨?_, ?_, ?_⟩ <;> rw [List.countP_append]
  · rw [← h.iterations, ← h'.iterations]
    rfl
  · rw [← h.direct, ← h'.direct]
    rfl
  · rw [← h.transactional, ← h'.transactional]
    rfl

lemma Totals.Counts.perm {t : Totals} {row row' : List Served} (h : t.Counts row)
    (hperm : row.Perm row') : t.Counts row' :=
  ⟨h.iterations.trans (hperm.countP_eq _), h.direct.trans (hperm.countP_eq _),
    h.transactional.trans (hperm.countP_eq _)⟩

/-- Totals add up as the rows do that they count. -/
lemma Totals.Counts.sum {α : Type} {as : List α} {f : α → Totals} {row : α → List Served}
    (h : ∀ a ∈ as, (f a).Counts (row a)) : (as.map f).sum.Counts (as.flatMap row) := by
  induction as with
  | nil => exact .zero
  | cons a as ih =>
      rw [List.map_cons, List.sum_cons, List.flatMap_cons]
      exact (h a List.mem_cons_self).add (ih fun b hb => h b (List.mem_cons_of_mem a hb))

/-- Whether a worker broke down. -/
def WorkerReport.brokeDown (r : WorkerReport) : Bool :=
  match r.failure with
  | some (.panicked _ _) => true
  | _ => false

/-- A report that counts the answered calls of a row. -/
structure Report.Counts (r : Report) (row : List Served) : Prop where
  iterations : r.iterations = row.countP Served.isAnswered
  direct : r.direct = row.countP Served.isSet
  transactional : r.transactional = row.countP Served.isTransaction

namespace Report

variable {a : Accounts} {r : Report}

/-- The accounts of workers make a report where there is room for what they count. -/
lemma exists_of_fits (h : (a.workers.map fun w : WorkerReport => w.tally.totals).sum.Fits) :
    ∃ r, ofAccounts a = .ok r := by
  have hsum : Tally.empty.totals + ((a.workers.map WorkerReport.tally).map Tally.totals).sum =
      (a.workers.map fun w : WorkerReport => w.tally.totals).sum := by
    rw [List.map_map]
    exact zero_add _
  obtain ⟨t, ht, -⟩ := mergeAll_of_fits (hsum ▸ h)
  rw [ofAccounts, ht]
  exact ⟨_, rfl⟩

/-- The report of accounts counts what the tallies of its workers count together. -/
lemma Counts.of_totals {row : List Served} (h : ofAccounts a = .ok r)
    (hcounts : (a.workers.map fun w : WorkerReport => w.tally.totals).sum.Counts row) :
    r.Counts row := by
  rw [ofAccounts] at h
  cases hm : mergeAll Tally.empty (a.workers.map WorkerReport.tally) with
  | error o =>
      rw [hm] at h
      cases h
  | ok t =>
      have htotals : t.totals = (a.workers.map fun w : WorkerReport => w.tally.totals).sum := by
        rw [totals_of_mergeAll hm, List.map_map]
        exact zero_add _
      rw [hm] at h
      rw [← htotals] at hcounts
      cases h
      exact ⟨hcounts.iterations, hcounts.direct, hcounts.transactional⟩

/-- A report that counts the answered calls in a part of a row counts those of the whole row if and
only if there are no others. -/
lemma Counts.filter_iff {row : List Served} {f : Served → Bool} (h : r.Counts (row.filter f)) :
    r.Counts row ↔ ∀ s ∈ row, s.isAnswered = true → f s = true := by
  constructor
  · intro hall s hs hanswered
    have hsplit := List.countP_eq_countP_filter_add row Served.isAnswered f
    rw [← hall.iterations, ← h.iterations] at hsplit
    -- the totals are the same, so no answer is among those that were filtered out
    have hnone : (row.filter fun s => !f s).countP Served.isAnswered = 0 := by omega
    by_contra hf
    refine List.countP_eq_zero.mp hnone s (List.mem_filter.mpr ⟨hs, ?_⟩) hanswered
    simpa using hf
  · intro hkept
    have hsame {g : Served → Bool} (hg : ∀ s, g s = true → s.isAnswered = true) :
        (row.filter f).countP g = row.countP g := by
      rw [List.countP_filter]
      refine List.countP_congr fun s hs => ?_
      rw [Bool.and_eq_true]
      exact ⟨And.left, fun hgs => ⟨hgs, hkept s hs (hg s hgs)⟩⟩
    refine ⟨h.iterations.trans (hsame fun _ => id), h.direct.trans (hsame fun s hs => ?_),
      h.transactional.trans (hsame fun s hs => ?_)⟩
    · exact (Bool.and_eq_true_iff.mp hs).1
    · exact (Bool.and_eq_true_iff.mp hs).1

end Report

namespace Worker

variable {p : Plan} {g g' : Generator} {calls : List Call} {w : Worker}

/-- Sets and transactions take turns, so that half of the calls that were answered are sets, and one
more where their number is odd. -/
lemma Issued.count_answered (h : Issued p g calls g')
    (htail : ∀ c ∈ calls.tail, c.isAnswered = true) :
    calls.countP (fun c => c.isAnswered && !c.request.isTransaction) =
        (calls.countP Call.isAnswered + 1) / 2 ∧
      calls.countP (fun c => c.isAnswered && c.request.isTransaction) =
        calls.countP Call.isAnswered / 2 := by
  induction h with
  | nil => exact ⟨rfl, rfl⟩
  | @cons calls g' h now reply ih =>
      have hall : ∀ c ∈ calls, c.isAnswered = true := htail
      obtain ⟨hset, htransaction⟩ := ih fun c hc => hall c (List.mem_of_mem_tail hc)
      -- only the latest call can be without an answer, and the kinds alternate
      have hlength : calls.countP Call.isAnswered = calls.length := List.countP_eq_length.mpr hall
      rw [hlength] at hset htransaction
      simp only [List.countP_cons, hset, htransaction, hlength, Plan.isTransaction_request]
      generalize Call.isAnswered _ = answered
      cases answered with
      | false => simp
      | true =>
          rcases Nat.mod_two_eq_zero_or_one (calls.length + 1) with hmod | hmod <;>
            simp [hmod] <;> omega

/-- Only a worker that leaves with a panic has broken down. -/
lemma Sound.brokeDown_eq_false (h : Sound p g w) {e : Exit} (hs : w.stage = .gone e)
    (hpanic : ∀ reason, e ≠ .panicked reason) : (w.reportOf e).brokeDown = false := by
  cases e with
  | completed => rfl
  | cancelled => rfl
  | panicked reason => exact absurd rfl (hpanic reason)
  | failed e' =>
      have hended := h.of_gone hs
      generalize w.calls = calls at hended
      generalize w.tally.totals = t at hended
      cases hended <;> rfl

/-- **The tally that a worker hands in counts the calls that were answered to it.** A worker that
broke down hands in the tally of nothing. -/
theorem Sound.counts (h : Sound p g w) {e : Exit} (hs : w.stage = .gone e) :
    (w.reportOf e).tally.totals.Counts (if (w.reportOf e).brokeDown then [] else w.row) := by
  -- a worker that broke down hands in an empty tally, and nothing of its row is asked for
  by_cases hpanic : ∃ reason, e = .panicked reason
  · obtain ⟨reason, rfl⟩ := hpanic
    exact .zero
  · have hpanic : ∀ reason, e ≠ .panicked reason := fun reason he => hpanic ⟨reason, he⟩
    have haccounted := h.accounted hs hpanic
    obtain ⟨hset, htransaction⟩ := h.issued.count_answered h.tail_answered
    have hanswered : w.row.countP Served.isAnswered = w.calls.countP Call.isAnswered :=
      countP_row w fun c _ => by rw [Call.served?, Call.isAnswered]; cases c.reply <;> rfl
    rw [if_neg (by simp [h.brokeDown_eq_false hs hpanic])]
    refine ⟨haccounted.iterations, ?_, ?_⟩
    · rw [haccounted.direct, haccounted.iterations, hanswered, ← hset]
      refine (countP_row w fun c _ => ?_).symm
      rw [Call.served?, Call.isAnswered]
      cases c.reply <;> rfl
    · rw [haccounted.transactional, haccounted.iterations, hanswered, ← htransaction]
      refine (countP_row w fun c _ => ?_).symm
      rw [Call.served?, Call.isAnswered]
      cases c.reply <;> rfl

end Worker

namespace Pool

variable {σ : Type} {db : Database σ} {p : Pool σ}

/-! ### The reports of a pool -/

/-- Once a pool is over there are its reports. -/
lemma exists_reports (hover : p.isOver = true) : ∃ rs, p.reports? = some rs := by
  refine exists_mapM_eq_some fun w hw => ?_
  have hgone : w.isGone = true := Array.all_eq_true'.mp hover w (Array.mem_toList_iff.mp hw)
  rw [← w.isSome_report?] at hgone
  exact Option.isSome_iff_exists.mp hgone

/-- The reports by their places are those of the workers in their order. -/
lemma map_reportOf? (p : Pool σ) :
    (List.range p.workers.size).map p.reportOf? = p.workers.toList.map Worker.report? := by
  refine List.ext_getElem (by simp) fun i hi hi' => ?_
  rw [List.length_map, List.length_range] at hi
  simp [reportOf?, hi]

/-- The reports of a pool stand in the order of its workers. -/
lemma getElem?_reports {rs : List WorkerReport} (h : p.reports? = some rs) (i : ℕ) :
    rs[i]? = p.reportOf? i := by
  have hrow : p.workers.toList.map Worker.report? = rs.map some := mapM_eq_some_iff.mp h
  have hplace : (p.workers.toList.map Worker.report?)[i]? = (rs.map some)[i]? := by rw [hrow]
  rw [List.getElem?_map, List.getElem?_map, Array.getElem?_toList] at hplace
  rw [reportOf?]
  -- there are as many reports as workers, so a place is in both rows or in neither
  cases hw : p.workers[i]? with
  | none =>
      rw [hw] at hplace
      cases hr : rs[i]? with
      | none => rfl
      | some r => rw [hr] at hplace; cases hplace
  | some w =>
      rw [hw] at hplace
      cases hr : rs[i]? with
      | none => rw [hr] at hplace; cases hplace
      | some r =>
          rw [hr] at hplace
          exact (Option.some.inj hplace).symm

lemma length_reports {rs : List WorkerReport} (h : p.reports? = some rs) :
    rs.length = p.workers.size := by
  have hrow := congrArg List.length (mapM_eq_some_iff.mp h)
  rw [List.length_map, List.length_map, Array.length_toList] at hrow
  exact hrow.symm

/-- The reports of a pool are those of its workers. -/
lemma mem_reports_iff {rs : List WorkerReport} (h : p.reports? = some rs) {r : WorkerReport} :
    r ∈ rs ↔ ∃ (i : ℕ) (w : Worker) (x : Exit), p.workers[i]? = some w ∧ w.stage = .gone x ∧
      w.reportOf x = r := by
  rw [List.mem_iff_getElem?]
  simp only [getElem?_reports h, reportOf?_eq_some_iff]

/-- Whether the worker at a place has broken down. -/
def brokeDown (p : Pool σ) (i : ℕ) : Bool :=
  (p.reportOf? i).any WorkerReport.brokeDown

/-! ### The calls of a pool -/

/-- The calls of all workers that came back at the store, in the order in which the store served
them. -/
def served (db : Database σ) (p : Pool σ) (events : List Event) : List Served :=
  (((p.logged []).run db.logged events).store.log.filterMap Access.served?).reverse

/-- The trace of a worker is what the pool has served of its calls. -/
lemma trace_eq_filter (db : Database σ) (p : Pool σ) (events : List Event) (i : ℕ) :
    p.trace db events i = (p.served db events).filter fun s => s.caller.worker = i := by
  rw [trace, served, List.filter_reverse, List.filter_filterMap]
  congr 2
  exact funext fun a => a.servedTo?_eq i

/-- An event adds a call of a worker of the pool to the log, or none. -/
lemma Stepped.worker_lt {plan : Plan} {entropy : ℕ → Generator} {p p' : Pool (Logged σ)}
    {e : Event} (hl : Launched plan entropy p)
    (h : ∀ s, .served s ∈ p.store.log → s.caller.worker < p.workers.size)
    (hs : Stepped db.logged p e p') :
    ∀ s, .served s ∈ p'.store.log → s.caller.worker < p'.workers.size := by
  rw [hs.size]
  cases hs with
  | @receive i k since f w hw hs r hr =>
      rw [Request.perform_logged] at hr
      subst hr
      intro s hmem
      rcases List.mem_cons.mp hmem with hs | hmem
      · rw [Access.served.inj hs]
        show w.index < p.workers.size
        rw [hl.index hw]
        exact (Array.getElem?_eq_some_iff.mp hw).1
      · exact h s hmem
  | _ => simpa using h

section Launch

variable (db) (plan : Plan) (policy : FailurePolicy) (count : ℕ) (entropy : ℕ → Generator)
  (store : σ) (events : List Event)

/-- Every call that the store has served is one of a worker of the pool. -/
lemma worker_lt_of_served {s : Served}
    (hs : s ∈ (launch plan policy count entropy store).served db events) :
    s.caller.worker < count := by
  -- the size of the pool and the callers of its log are kept together by each step
  have hend : Launched plan entropy
        (((launch plan policy count entropy store).logged []).run db.logged events) ∧
      (((launch plan policy count entropy store).logged []).run db.logged events).workers.size =
        count ∧
      ∀ s, .served s ∈
          (((launch plan policy count entropy store).logged []).run db.logged events).store.log →
        s.caller.worker < (((launch plan policy count entropy store).logged []).run db.logged
          events).workers.size :=
    run_induction
      (P := fun q => Launched plan entropy q ∧ q.workers.size = count ∧
        ∀ s, .served s ∈ q.store.log → s.caller.worker < q.workers.size)
      (fun h hs => ⟨h.1.stepped hs, hs.size.trans h.2.1, hs.worker_lt h.1 h.2.2⟩)
      ⟨.launch plan policy count entropy (⟨store, []⟩ : Logged σ), by simp [launch],
        fun s hs => absurd hs List.not_mem_nil⟩ events
  rw [served, List.mem_reverse, List.mem_filterMap] at hs
  obtain ⟨a, ha, hserved⟩ := hs
  have has : a = .served s := by
    cases a <;> cases hserved
    rfl
  exact hend.2.1 ▸ hend.2.2 s (has ▸ ha)

/-- What the store has served to a worker that did not break down, and nothing of any other. -/
lemma filter_kept {i : ℕ} {w : Worker}
    (hw : ((launch plan policy count entropy store).run db events).workers[i]? = some w)
    (broken : ℕ → Bool) :
    (((launch plan policy count entropy store).served db events).filter
        (fun s => !broken s.caller.worker)).filter (fun s => s.caller.worker = i) =
      if broken i then [] else w.row := by
  obtain ⟨-, -, htrace⟩ := trace_eq_row db plan policy count entropy store events hw
  rw [← htrace, trace_eq_filter, List.filter_filter]
  split
  · rename_i hbroken
    rw [List.filter_eq_nil_iff]
    rintro s - hs
    simp only [Bool.and_eq_true, decide_eq_true_eq, Bool.not_eq_true'] at hs
    rw [hs.1, hbroken] at hs
    cases hs.2
  · rename_i hbroken
    refine List.filter_congr fun s _ => ?_
    by_cases hs : s.caller.worker = i
    · simp [hs, hbroken]
    · simp [hs]

/-- A pool keeps the workers with which it was launched. -/
lemma size_run : ((launch plan policy count entropy store).run db events).workers.size = count :=
  run_induction (P := fun q => q.workers.size = count) (fun h hs => hs.size.trans h)
    (by simp [launch]) events

/-- **The reports of a pool that is over count the answers to those of its workers that did not
break down.** -/
theorem counts_of_reports {rs : List WorkerReport}
    (hrs : ((launch plan policy count entropy store).run db events).reports? = some rs) :
    (rs.map fun r : WorkerReport => r.tally.totals).sum.Counts
      (((launch plan policy count entropy store).served db events).filter fun s =>
        !((launch plan policy count entropy store).run db events).brokeDown s.caller.worker) := by
  have hsize : rs.length = count :=
    (length_reports hrs).trans (size_run db plan policy count entropy store events)
  rw [map_eq_map_range rs (fun r : WorkerReport => r.tally.totals) 0, hsize]
  refine (Totals.Counts.sum fun i hi => ?_).perm (perm_flatMap_filter fun s hs =>
    worker_lt_of_served db plan policy count entropy store events (List.mem_filter.mp hs).1)
  have hi' : i < rs.length := hsize ▸ List.mem_range.mp hi
  have hr := getElem?_reports hrs i
  rw [List.getElem?_eq_getElem hi', eq_comm] at hr
  obtain ⟨w, e, hw, hs, hreport⟩ := reportOf?_eq_some_iff.mp hr
  obtain ⟨hsound, -, -⟩ := trace_eq_row db plan policy count entropy store events hw
  rw [filter_kept db plan policy count entropy store events hw, brokeDown, hr,
    List.getElem?_eq_getElem hi', ← hreport]
  exact hsound.counts hs

end Launch

/-! ### The report -/

/-- **A report counts the answers to all workers but those that broke down.** Once a pool is over
there are its reports, whatever the store has answered and however its workers have ended, and they
make a report where there is room for what they count. It counts exactly the calls, sets and
transactions that were answered to a worker that did not break down. So it counts all answers if and
only if no call was answered to a worker that broke down. -/
theorem reports_count_answers (db : Database σ) (plan : Plan) (policy : FailurePolicy) (count : ℕ)
    (entropy : ℕ → Generator) (store : σ) (events : List Event)
    (hover : ((launch plan policy count entropy store).run db events).isOver = true) :
    let start := launch plan policy count entropy store
    let p := start.run db events
    let served := start.served db events
    ∃ rs, p.reports? = some rs ∧ ∀ a : Accounts, a.workers = rs →
      ((rs.map fun r : WorkerReport => r.tally.totals).sum.Fits →
        ∃ report, Report.ofAccounts a = .ok report) ∧
      ∀ report, Report.ofAccounts a = .ok report →
        report.Counts (served.filter fun s => !p.brokeDown s.caller.worker) ∧
          (report.Counts served ↔
            ∀ s ∈ served, s.isAnswered = true → p.brokeDown s.caller.worker = false) := by
  intro start p served
  obtain ⟨rs, hrs⟩ := exists_reports hover
  refine ⟨rs, hrs, ?_⟩
  rintro a rfl
  refine ⟨fun hfits => Report.exists_of_fits hfits, fun report hreport => ?_⟩
  have hcounts : report.Counts (served.filter fun s => !p.brokeDown s.caller.worker) :=
    .of_totals hreport (counts_of_reports db plan policy count entropy store events hrs)
  refine ⟨hcounts, hcounts.filter_iff.trans ?_⟩
  simp only [Bool.not_eq_true']

/-- Two workers, the first of which breaks down at its second call. The report counts the two
answers to the other one. -/
theorem reports_count_answers_at_breakdown :
    let plan : Plan := ⟨"shared", "guard", "value", 3, 0, Duration.zero, 1, false, none⟩
    let start := launch plan .continue 2 (fun _ => ⟨Key.ofSeed 0, 0, [0, 0]⟩) Memory.fresh
    let db := Script.database { Script.smooth with
      mishaps := [⟨0, 2, none, some (.text "boom"), none⟩] } 0
    let events := .start :: List.replicate 9 (.turn 0) ++ List.replicate 9 (.turn 1)
    let p := start.run db events
    ∃ rs report, p.reports? = some rs ∧
      Report.ofAccounts ⟨rs, Duration.zero, 0, 0, "sentinel", none⟩ = .ok report ∧
      report.iterations = 2 ∧
      report.Counts ((start.served db events).filter fun s => !p.brokeDown s.caller.worker) := by
  intro plan start db events p
  have hiterations : (p.reports?.bind fun rs =>
      (Report.ofAccounts ⟨rs, Duration.zero, 0, 0, "sentinel", none⟩).toOption.map
        Report.iterations) = some 2 := by decide +kernel
  obtain ⟨rs, hrs, hsome⟩ := Option.bind_eq_some_iff.mp hiterations
  obtain ⟨report, hok, htwo⟩ := Option.map_eq_some_iff.mp hsome
  have hreport : Report.ofAccounts ⟨rs, Duration.zero, 0, 0, "sentinel", none⟩ = .ok report := by
    revert hok
    cases Report.ofAccounts ⟨rs, Duration.zero, 0, 0, "sentinel", none⟩ with
    | error o => exact fun h => by cases h
    | ok r => exact fun h => congrArg Except.ok (Option.some.inj h)
  obtain ⟨rs', hrs', hcounts⟩ := reports_count_answers db plan .continue 2
    (fun _ => ⟨Key.ofSeed 0, 0, [0, 0]⟩) Memory.fresh events (by decide +kernel)
  obtain rfl : rs' = rs := Option.some.inj (hrs'.symm.trans hrs)
  exact ⟨rs', report, hrs, hreport, htwo, ((hcounts _ rfl).2 report hreport).1⟩

/-- An answer that is lost. The only worker breaks down at its second call, and the report counts
nothing, though the store has answered its first call. -/
theorem answers_lost_in_breakdown :
    let plan : Plan := ⟨"shared", "guard", "value", 4, 0, Duration.zero, 1, false, none⟩
    let start := launch plan .continue 1 (fun _ => ⟨Key.ofSeed 0, 0, [0, 0]⟩) Memory.fresh
    let db := Script.database { Script.smooth with
      mishaps := [⟨0, 2, none, some (.text "boom"), none⟩] } 0
    let events := .start :: List.replicate 9 (.turn 0)
    (start.run db events).isOver = true ∧
      ((start.run db events).reports?.bind fun rs =>
        (Report.ofAccounts ⟨rs, Duration.zero, 0, 0, "sentinel", none⟩).toOption.map fun r =>
          (r.iterations, r.direct)) = some (0, 0) ∧
      (start.served db events).countP Served.isAnswered = 1 ∧
      (start.served db events).countP Served.isSet = 1 := by
  decide +kernel

end Pool

end StoreSoak
