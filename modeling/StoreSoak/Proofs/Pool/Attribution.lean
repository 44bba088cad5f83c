import StoreSoak.Proofs.Pool.Reports

/-!
Every report in the place of its worker.

A worker breaks down at its call, when the store panics or when its own tally has no room for what
it has to count. Its report is made of that breakdown, and the report of a task that is lost is made
where the tasks are joined.

* `Worker.Breaks` says over what a worker breaks down, `Pool.Panicked` that it did in the course of
  a run. `breakdown?` is the trace of it in the stage of a worker, and `breakdown?_run` says that
  there is no other way to such a stage.
* `join?` are the reports of the tasks of a pool, some of which may be lost.
* `reports_in_place`: no worker is dropped, and none answers for another one.
-/

namespace StoreSoak

/-- The text with which a worker has broken down, if it has. -/
def Stage.breakdown? : Stage → Option String
  | .leaving (.panicked reason) => some reason
  | .gone (.panicked reason) => some reason
  | _ => none

namespace Worker

variable {p : Plan} {g : Generator} {w : Worker} {now k since : ℕ} {f : Flags} {text : String}

/-! ### Breaking down -/

/-- A worker that gets such a reply to its call breaks down with such a text. -/
inductive Breaks (p : Plan) (w : Worker) (now k since : ℕ) (f : Flags) :
    Reply (Option Bool) → String → Prop where
  /-- The store panics with a text. -/
  | text (s : String) : Breaks p w now k since f (.crashed (.text s)) s
  /-- The store panics with something that is no text. -/
  | other : Breaks p w now k since f (.crashed .other) "non-string panic payload"
  /-- The tally has no room for the sample. -/
  | sample {a : Option Bool} {o : Overflow}
      (ho : w.tally.consume (sample k f (now - since) a) = .error o) :
      Breaks p w now k since f (.answered a) o.message
  /-- The tally has room for the sample, but none for the pause after it. -/
  | pause {a : Option Bool} {t : Tally} {o : Overflow}
      (ht : w.tally.consume (sample k f (now - since) a) = .ok t) (hgoes : ¬ HeldUp p a)
      (hthrottles : Plan.throttles p.throttleInterval k = true) (ho : t.recordPause = .error o) :
      Breaks p w now k since f (.answered a) o.message

lemma breakdown?_proceed {k : ℕ} :
    (w.proceed p k now).1.stage.breakdown? = some text ↔
      Plan.throttles p.throttleInterval k = true ∧
        ∃ o, w.tally.recordPause = .error o ∧ o.message = text := by
  rw [proceed]
  split
  · rename_i hthrottles
    cases ht : w.tally.recordPause with
    | error o => simp [panic, goTo, Stage.breakdown?, hthrottles]
    | ok t => simp [Stage.breakdown?]
  · rename_i hthrottles
    simp [goTo, Stage.breakdown?, hthrottles]

lemma breakdown?_accept {a : Option Bool} :
    (w.accept p k now a).1.stage.breakdown? = some text ↔
      ¬ HeldUp p a ∧ Plan.throttles p.throttleInterval k = true ∧
        ∃ o, w.tally.recordPause = .error o ∧ o.message = text := by
  rw [accept]
  split
  · rename_i ha
    split
    · rename_i hstrict
      simp [goTo, Stage.breakdown?, HeldUp, ha, hstrict]
    · rename_i hstrict
      simp [breakdown?_proceed, HeldUp, hstrict]
  · rename_i ha
    simp [breakdown?_proceed, HeldUp, ha]

/-- After its call came back a worker has broken down exactly when the reply or its tally made it
do so. -/
lemma breakdown?_receive (hs : w.stage = .calling k f since) {reply : Reply (Option Bool)} :
    (w.receive p now reply).1.stage.breakdown? = some text ↔ w.Breaks p now k since f reply text := by
  have htally : (w.noteReply reply).tally = w.tally := rfl
  simp only [receive, hs]
  -- a worker breaks down at a reply that panics, or where its sample or its pause does not fit
  cases reply with
  | crashed payload =>
      cases payload with
      | text s =>
          refine ⟨fun h => ?_, fun h => ?_⟩
          · cases h
            exact .text _
          · cases h
            rfl
      | other =>
          refine ⟨fun h => ?_, fun h => ?_⟩
          · cases h
            exact .other
          · cases h
            rfl
  | failed source =>
      refine ⟨fun h => ?_, fun h => ?_⟩ <;> cases h
  | answered a =>
      dsimp only
      rw [htally]
      cases ht : w.tally.consume (sample k f (now - since) a) with
      | error o =>
          refine ⟨fun h => ?_, fun h => ?_⟩
          · cases h
            exact .sample ht
          · cases h with
            | sample ho =>
                rw [ht] at ho
                cases ho
                rfl
            | pause ht' =>
                rw [ht] at ht'
                cases ht'
      | ok t =>
          dsimp only
          rw [breakdown?_accept]
          constructor
          · rintro ⟨hgoes, hthrottles, o, ho, rfl⟩
            exact .pause ht hgoes hthrottles ho
          · intro h
            cases h with
            | sample ho =>
                rw [ht] at ho
                cases ho
            | pause ht' hgoes hthrottles ho =>
                rw [ht] at ht'
                cases ht'
                exact ⟨hgoes, hthrottles, _, ho, rfl⟩

/-- A move other than that of a call that comes back breaks nobody down. -/
lemma Turned.breakdown? {s : Signals} {v : Worker} (h : w.Turned p s now v)
    (hcall : ∀ k f since, w.stage ≠ .calling k f since) :
    v.stage.breakdown? = w.stage.breakdown? := by
  cases h with
  | @release go hs => cases go <;> simp [Worker.release, hs, goTo, Stage.breakdown?]
  | check hs =>
      simp only [Worker.check, hs, stop, goTo]
      split
      · rfl
      · split <;> rfl
  | issue hs => simp [Worker.issue, hs, Stage.breakdown?]
  | receive hs => exact absurd hs (hcall _ _ _)
  | resume hs => simp [Worker.resume, hs, goTo, Stage.breakdown?]
  | interrupt hs => simp [Worker.interrupt, hs, stop, goTo, Stage.breakdown?]
  | @finish e hs => cases e <;> simp [Worker.finish, hs, goTo, Stage.breakdown?]

/-- A failure of a sound worker names the worker, and is a breakdown exactly when it has broken
down. -/
lemma Sound.failure (h : Sound p g w) {x : Exit} (hs : w.stage = .gone x) :
    (∀ e, (w.reportOf x).failure = some e → e.worker = w.index) ∧
      ∀ i text, (w.reportOf x).failure = some (.panicked i text) ↔
        i = w.index ∧ w.stage.breakdown? = some text := by
  have hended := h.of_gone hs
  rw [hs]
  simp only [reportOf]
  cases x with
  | completed => simp [Exit.failure?, Stage.breakdown?]
  | cancelled => simp [Exit.failure?, Stage.breakdown?]
  | panicked reason => simp [Exit.failure?, Stage.breakdown?, WorkerError.worker, eq_comm]
  | failed e =>
      generalize w.calls = calls at hended
      cases hended with
      | failed => simp [Exit.failure?, Stage.breakdown?, WorkerError.worker]
      | guarded => simp [Exit.failure?, Stage.breakdown?, WorkerError.worker]

end Worker

namespace Pool

variable {σ : Type} {db : Database σ} {p p' : Pool σ} {e : Event} {i : ℕ} {text : String}

/-- At its turn the call of the worker comes back, and the worker breaks down with the given
text. -/
def Panics (db : Database σ) (p : Pool σ) (i : ℕ) (text : String) : Prop :=
  ∃ w k f since, p.workers[i]? = some w ∧ w.stage = .calling k f since ∧
    w.Breaks p.plan p.now k since f ((p.plan.request k f).perform db ⟨w.index, k⟩ p.store).1 text

/-- In the course of a run there is a turn at which the worker breaks down with the given text. -/
def Panicked (db : Database σ) (p : Pool σ) (events : List Event) (i : ℕ) (text : String) : Prop :=
  ∃ before after, events = before ++ .turn i :: after ∧ (p.run db before).Panics db i text

lemma panicked_cons {events : List Event} :
    p.Panicked db (e :: events) i text ↔
      e = .turn i ∧ p.Panics db i text ∨ (p.step db e).Panicked db events i text := by
  constructor
  · rintro ⟨before, after, hevents, hpanics⟩
    cases before with
    | nil =>
        cases hevents
        exact .inl ⟨rfl, hpanics⟩
    | cons e' before =>
        cases hevents
        exact .inr ⟨before, after, rfl, hpanics⟩
  · rintro (⟨rfl, hpanics⟩ | ⟨before, after, rfl, hpanics⟩)
    · exact ⟨[], events, rfl, hpanics⟩
    · exact ⟨e :: before, after, rfl, hpanics⟩

/-- The text with which the worker at a place has broken down, if it has. -/
def breakdown? (p : Pool σ) (i : ℕ) : Option String :=
  p.workers[i]?.bind fun w => w.stage.breakdown?

lemma breakdown?_of_worker {w : Worker} (hw : p.workers[i]? = some w) :
    p.breakdown? i = w.stage.breakdown? := by
  rw [breakdown?, hw, Option.bind_some]

/-- An event that lets no call of the worker come back does not break it down. -/
lemma Stepped.breakdown? (h : Stepped db p e p')
    (hcall : ∀ w k f since, e = .turn i → p.workers[i]? = some w → w.stage ≠ .calling k f since) :
    p'.breakdown? i = p.breakdown? i := by
  have hreplace {j : ℕ} {w v : Worker} (hw : p.workers[j]? = some w)
      (hsame : i = j → v.stage.breakdown? = w.stage.breakdown?)
      (hworkers : p'.workers = p.workers.setIfInBounds j v) : p'.breakdown? i = p.breakdown? i := by
    rw [Pool.breakdown?, Pool.breakdown?, hworkers, getElem?_replace hw]
    split
    · rename_i hji
      subst hji
      rw [hw, Option.bind_some, Option.bind_some, hsame rfl]
    · rfl
  have hturn {j : ℕ} {w v : Worker} (hw : p.workers[j]? = some w)
      (ht : w.Turned p.plan p.signals p.now v) (hwaits : ∀ k f since, w.stage ≠ .calling k f since)
      (hworkers : p'.workers = p.workers.setIfInBounds j v) : p'.breakdown? i = p.breakdown? i :=
    hreplace hw (fun _ => ht.breakdown? hwaits) hworkers
  cases h with
  | tick d => rfl
  | start => rfl
  | cancel => rw [Pool.breakdown?, requestShutdown_workers, Pool.breakdown?]
  | dropLifecycle => rfl
  | idle => rfl
  | release hw hs hgo => exact hturn hw (.release hs hgo) (by simp [hs]) rfl
  | check hw hs => exact hturn hw (.check hs) (by simp [hs]) rfl
  | issue hw hs => exact hturn hw (.issue hs) (by simp [hs]) rfl
  | receive hw hs hr =>
      refine hreplace hw (fun hij => ?_) rfl
      subst hij
      exact absurd hs (hcall _ _ _ _ rfl hw)
  | resume hw hs hwake => exact hturn hw (.resume hs) (by simp [hs]) rfl
  | retire hw hs => exact hturn hw (.finish hs) (by simp [hs]) (retire_workers ..)
  | @interrupt j w hw hshutdown =>
      cases hs : w.stage with
      | pausing k wake => exact hturn hw (.interrupt hs hshutdown) (by simp [hs]) rfl
      | _ =>
          -- a worker that does not pause hears nothing
          have hsame : w.interrupt.1 = w := by rw [Worker.interrupt, hs]
          exact hreplace hw (fun _ => by rw [hsame]) rfl

/-- An event breaks a worker down exactly when it is a turn at which the worker panics. -/
lemma breakdown?_step (db : Database σ) (p : Pool σ) (e : Event) :
    (p.step db e).breakdown? i = some text ↔
      p.breakdown? i = some text ∨ e = .turn i ∧ p.Panics db i text := by
  -- only the turn of a worker that waits for a reply can break it down
  by_cases hcall : ∃ w k f since, e = .turn i ∧ p.workers[i]? = some w ∧
      w.stage = .calling k f since
  · obtain ⟨w, k, f, since, rfl, hw, hs⟩ := hcall
    have hbefore : p.breakdown? i ≠ some text := by
      rw [breakdown?_of_worker hw, hs]
      simp [Stage.breakdown?]
    have hafter : (p.step db (.turn i)).breakdown? i = (w.receive p.plan p.now
        ((p.plan.request k f).perform db ⟨w.index, k⟩ p.store).1).1.stage.breakdown? := by
      simp only [step, hw, turn, hs]
      exact breakdown?_of_worker (by rw [put_workers, getElem?_replace hw, if_pos rfl])
    rw [hafter, Worker.breakdown?_receive hs]
    constructor
    · exact fun hbreaks => .inr ⟨rfl, w, k, f, since, hw, hs, hbreaks⟩
    · rintro (h | ⟨-, w', k', f', since', hw', hs', hbreaks⟩)
      · exact absurd h hbefore
      · rw [hw] at hw'
        cases hw'
        rw [hs] at hs'
        cases hs'
        exact hbreaks
  · rw [(stepped db p e).breakdown? fun w k f since he hw hs => hcall ⟨w, k, f, since, he, hw, hs⟩]
    refine (or_iff_left ?_).symm
    rintro ⟨he, w, k, f, since, hw, hs, -⟩
    exact hcall ⟨w, k, f, since, he, hw, hs⟩

/-- A worker has broken down after a run exactly when it had before or has panicked in its
course. -/
lemma breakdown?_run (db : Database σ) (p : Pool σ) (events : List Event) :
    (p.run db events).breakdown? i = some text ↔
      p.breakdown? i = some text ∨ p.Panicked db events i text := by
  induction events generalizing p with
  | nil => simp [Panicked]
  | cons e events ih => rw [run_cons, ih, breakdown?_step, panicked_cons, or_assoc]

/-- Nobody has broken down at the launch. -/
lemma breakdown?_launch (plan : Plan) (policy : FailurePolicy) (count : ℕ)
    (entropy : ℕ → Generator) (store : σ) (i : ℕ) :
    (launch plan policy count entropy store).breakdown? i = none := by
  cases hw : (launch plan policy count entropy store).workers[i]? with
  | none => rw [breakdown?, hw, Option.bind_none]
  | some w =>
      rw [breakdown?_of_worker hw, (launch_workers plan policy count entropy store hw).2]
      rfl

/-! ### Joining the tasks -/

/-- The report that stands for a task that is lost, made of the error of joining it. -/
def lostReport (i : ℕ) (reason : String) : WorkerReport :=
  { index := i, tally := Tally.empty, cancelled := false, failure := some (.panicked i reason) }

/-- The report of a task, once it can be joined; `lost` tells of the tasks that cannot hand in a
report of their own, with the errors of joining them. -/
def joined? (lost : ℕ → Option String) (p : Pool σ) (i : ℕ) : Option WorkerReport :=
  match lost i with
  | some reason => some (lostReport i reason)
  | none => p.reportOf? i

/-- The reports of all tasks in their order, once all can be joined. -/
def join? (lost : ℕ → Option String) (p : Pool σ) : Option (List WorkerReport) :=
  (List.range p.workers.size).mapM (joined? lost p)

/-- The reports of all tasks are as many as there are workers, and each stands in its place. -/
lemma join?_eq_some_iff {lost : ℕ → Option String} {rs : List WorkerReport} :
    p.join? lost = some rs ↔
      rs.length = p.workers.size ∧ ∀ i < p.workers.size, rs[i]? = p.joined? lost i := by
  rw [join?, mapM_eq_some_iff]
  constructor
  · intro h
    have hlength : p.workers.size = rs.length := by simpa using congrArg List.length h
    refine ⟨hlength.symm, fun i hi => ?_⟩
    have hplace : ((List.range p.workers.size).map (p.joined? lost))[i]? = (rs.map some)[i]? := by
      rw [h]
    rw [hlength] at hi
    simpa [hlength, hi, eq_comm] using hplace
  · rintro ⟨hlength, hplaces⟩
    refine List.ext_getElem (by simp [hlength]) fun i hi hi' => ?_
    rw [List.length_map, List.length_range] at hi
    simp [← hplaces i hi]

/-- Where no task is lost the reports are those of the workers. -/
lemma join?_none (p : Pool σ) : p.join? (fun _ => none) = p.reports? := by
  calc p.join? (fun _ => none)
      = ((List.range p.workers.size).map p.reportOf?).mapM id := by rw [List.mapM_map]; rfl
    _ = (p.workers.toList.map Worker.report?).mapM id := by rw [map_reportOf?]
    _ = p.reports? := by rw [List.mapM_map]; rfl

/-- Once a pool is over all its tasks can be joined. -/
lemma exists_join (lost : ℕ → Option String) (hover : p.isOver = true) :
    ∃ rs, p.join? lost = some rs := by
  refine exists_mapM_eq_some fun i hi => ?_
  rw [joined?]
  split
  · exact ⟨_, rfl⟩
  · obtain ⟨w, hw⟩ : ∃ w, p.workers[i]? = some w :=
      ⟨_, Array.getElem?_eq_getElem (List.mem_range.mp hi)⟩
    obtain ⟨x, hs⟩ := stage_of_isOver hover hw
    exact ⟨_, reportOf?_eq_some_iff.mpr ⟨w, x, hw, hs, rfl⟩⟩

/-- A pool whose workers know whether to start can be brought to its end. -/
lemma Launched.exists_over {plan : Plan} {entropy : ℕ → Generator} (h : Launched plan entropy p)
    (db : Database σ) (hstarted : p.signals.started ≠ none) :
    ∃ more, (p.run db more).isOver = true := by
  have hsound {i : ℕ} {w : Worker} (hw : p.workers[i]? = some w) : ∃ g, w.Sound p.plan g :=
    ⟨_, h.plan_eq ▸ h.sound hw⟩
  obtain ⟨more, -, hover, -⟩ := Pool.exists_over db ⟨hstarted, hsound⟩
  exact ⟨more, hover⟩

/-- The report of a task that is joined names its worker, and tells of a breakdown exactly when the
worker has panicked or the task is lost. -/
lemma joined?_names {plan : Plan} {entropy : ℕ → Generator} (h : Launched plan entropy p)
    {lost : ℕ → Option String} {r : WorkerReport} (hr : p.joined? lost i = some r) :
    r.index = i ∧ (∀ e, r.failure = some e → e.worker = i) ∧
      ∀ j text, r.failure = some (.panicked j text) ↔
        j = i ∧ (lost i = some text ∨ lost i = none ∧ p.breakdown? i = some text) := by
  rw [joined?] at hr
  cases hlost : lost i with
  | some reason =>
      simp only [hlost, Option.some.injEq] at hr
      subst hr
      simp [lostReport, WorkerError.worker, eq_comm]
  | none =>
      simp only [hlost] at hr
      obtain ⟨w, x, hw, hs, rfl⟩ := reportOf?_eq_some_iff.mp hr
      have hindex : w.index = i := h.index hw
      refine ⟨hindex, fun e he => ?_, fun j text => ?_⟩
      · exact (((h.sound hw).failure hs).1 e he).trans hindex
      · rw [((h.sound hw).failure hs).2 j, hindex, breakdown?_of_worker hw]
        simp

/-- **Every report stands in the place of its worker.**

Whatever the store replies, whenever the signals are raised and in whatever order the workers go on,
the reports are as many as the workers, and the one at a place has the index of the place. A failure
in it names the worker of the place, and says that it panicked exactly if its task did, over its
call or over its own tally, or is lost; it tells the text of that panic. Once all workers are gone
the reports are there, and a pool whose workers know whether to start can be brought so far. -/
theorem reports_in_place (db : Database σ) (plan : Plan) (policy : FailurePolicy) (count : ℕ)
    (entropy : ℕ → Generator) (store : σ) (events : List Event) (lost : ℕ → Option String) :
    let start := launch plan policy count entropy store
    let p := start.run db events
    (∀ rs, p.join? lost = some rs → rs.length = count ∧ ∀ i r, rs[i]? = some r →
      r.index = i ∧ (∀ e, r.failure = some e → e.worker = i) ∧
        ∀ j text, r.failure = some (.panicked j text) ↔
          j = i ∧ (lost i = some text ∨ lost i = none ∧ start.Panicked db events i text)) ∧
    p.join? (fun _ => none) = p.reports? ∧
    (p.isOver = true → ∃ rs, p.join? lost = some rs) ∧
    (p.signals.started ≠ none → ∃ more, (p.run db more).isOver = true) := by
  intro start p
  have hlaunched : Launched plan entropy p :=
    run_induction (fun h hs => h.stepped hs) (.launch plan policy count entropy store) events
  have hsize : p.workers.size = count := size_run db plan policy count entropy store events
  -- no worker is broken down at the launch, so what there is at the end came during the run
  have hpanicked {i : ℕ} {text : String} :
      p.breakdown? i = some text ↔ start.Panicked db events i text := by
    rw [breakdown?_run, breakdown?_launch]
    simp
  refine ⟨fun rs hrs => ?_, join?_none p, fun hover => exists_join lost hover,
    fun hstarted => hlaunched.exists_over db hstarted⟩
  obtain ⟨hlength, hplaces⟩ := join?_eq_some_iff.mp hrs
  refine ⟨hlength.trans hsize, fun i r hr => ?_⟩
  have hi : i < p.workers.size := hlength ▸ (List.getElem?_eq_some_iff.mp hr).1
  obtain ⟨hindex, hworker, hpanic⟩ := joined?_names hlaunched ((hplaces i hi).symm.trans hr)
  exact ⟨hindex, hworker, fun j text => by rw [hpanic, hpanicked]⟩

/-- Four workers that finish in another order than their own: two of them break down, one with a
text and one without, and the task of the last one is lost. -/
theorem reports_in_place_at_breakdowns :
    let plan : Plan := ⟨"shared", "guard", "value", 3, 0, Duration.zero, 1, false, none⟩
    let start := launch plan .continue 4 (fun _ => ⟨Key.ofSeed 0, 0, [0, 0]⟩) Memory.fresh
    let db := Script.database { Script.smooth with
      mishaps := [⟨0, 2, none, some (.text "boom"), none⟩, ⟨1, 1, none, some .other, none⟩] } 0
    let events := .start :: List.replicate 9 (.turn 2) ++ List.replicate 9 (.turn 1) ++
      List.replicate 9 (.turn 0)
    let lost (i : ℕ) := if i = 3 then some "task 7 was cancelled" else none
    ∃ rs, (start.run db events).join? lost = some rs ∧ rs.length = 4 ∧
      rs.map WorkerReport.failure = [some (.panicked 0 "boom"),
        some (.panicked 1 "non-string panic payload"), none,
        some (.panicked 3 "task 7 was cancelled")] ∧
      start.Panicked db events 0 "boom" ∧ ∀ text, ¬ start.Panicked db events 2 text := by
  intro plan start db events lost
  have hfailures : ((start.run db events).join? lost).map (List.map WorkerReport.failure) =
      some [some (.panicked 0 "boom"), some (.panicked 1 "non-string panic payload"), none,
        some (.panicked 3 "task 7 was cancelled")] := by decide +kernel
  obtain ⟨rs, hrs, hrow⟩ := Option.map_eq_some_iff.mp hfailures
  obtain ⟨hlength, hplaces⟩ := (reports_in_place db plan .continue 4
    (fun _ => ⟨Key.ofSeed 0, 0, [0, 0]⟩) Memory.fresh events lost).1 rs hrs
  have hplace (i : ℕ) : rs[i]?.map WorkerReport.failure = _ :=
    (List.getElem?_map ..).symm.trans (congrArg (fun row => row[i]?) hrow)
  refine ⟨rs, hrs, hlength, hrow, ?_, fun text => ?_⟩
  · obtain ⟨r, hr, hfailure⟩ := Option.map_eq_some_iff.mp (hplace 0)
    have hfirst := (hplaces 0 r hr).2.2 0 "boom"
    simpa [hfailure, lost] using hfirst
  · obtain ⟨r, hr, hfailure⟩ := Option.map_eq_some_iff.mp (hplace 2)
    have hthird := (hplaces 2 r hr).2.2 2 text
    simpa [hfailure, lost] using hthird

end Pool

end StoreSoak
