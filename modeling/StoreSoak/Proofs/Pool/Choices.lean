import StoreSoak.Proofs.Pool.Trace

/-!
What the workers of a pool choose can be reproduced.

The kinds of a worker's calls and which of them go ahead of queued work are told by the base seed,
the index of the worker and the odds. Whatever else two pools differ in, the worker that issues more
calls begins with the choices of the other one.

* `choices_of_seed`: the choices of a worker are those of the parities and of the draws of its
  generator, one draw for each call.
* `trace_prefix_choices`: what the store sees of a worker are its choices in order.
* `choices_reproducible` compares two pools.
-/

namespace StoreSoak

/-- What is made place by place of the beginning of a row is the beginning of what is made of the
row. -/
lemma prefix_mapIdx {α β : Type} (f : ℕ → α → β) {as bs : List α} (h : as <+: bs) :
    as.mapIdx f <+: bs.mapIdx f := by
  obtain ⟨rest, rfl⟩ := h
  rw [List.mapIdx_append]
  exact List.prefix_append _ _

namespace Worker

variable {p : Plan} {g : Generator} {w : Worker}

/-- The choices of answered calls are seen by the store. -/
lemma map_choice_served (i : ℕ) {calls : List Call} (h : ∀ c ∈ calls, c.isAnswered = true) :
    ((calls.filterMap (Call.served? i)).reverse.map fun s => s.request.choice) =
      calls.reverse.map fun c => c.request.choice := by
  induction calls with
  | nil => rfl
  | cons c calls ih =>
      have hc := h c List.mem_cons_self
      have hrest := ih fun d hd => h d (List.mem_cons_of_mem c hd)
      cases hr : c.reply with
      | none =>
          rw [Call.isAnswered, hr] at hc
          cases hc
      | some r =>
          rw [List.filterMap_cons_some (Call.served?_of_reply i hr), List.reverse_cons,
            List.map_append, hrest, List.reverse_cons, List.map_append]
          rfl

/-- What came back of the calls are the first of them: a call is issued only when those before it
were answered. -/
lemma Sound.prefix_row (h : Sound p g w) :
    (w.row.map fun s => s.request.choice) <+: w.choices := by
  have htail := h.tail_answered
  rw [row, choices]
  cases hcalls : w.calls with
  | nil => exact List.prefix_rfl
  | cons c calls =>
      rw [hcalls, List.tail_cons] at htail
      rw [List.reverse_cons, List.map_append, ← map_choice_served w.index htail]
      cases hr : c.reply with
      | none =>
          rw [List.filterMap_cons_none (by rw [Call.served?, hr]; rfl)]
          exact List.prefix_append _ _
      | some r =>
          rw [List.filterMap_cons_some (Call.served?_of_reply w.index hr), List.reverse_cons,
            List.map_append]
          exact List.prefix_rfl

end Worker

namespace Pool

variable {σ τ : Type}

/-- The choices of a worker of a seeded plan are those of the parities and of the draws of its
generator, one draw for each call that it has issued. -/
lemma choices_of_seed (db : Database σ) {plan : Plan} {base : UInt64} (hseed : plan.seed = some base)
    (policy : FailurePolicy) (count : ℕ) (entropy : ℕ → Generator) (store : σ) (events : List Event)
    {i : ℕ} {w : Worker}
    (hw : ((launch plan policy count entropy store).run db events).workers[i]? = some w) :
    w.choices =
      (Draw.sequence (max plan.highPriorityOdds 1) w.calls.length (Generator.ofWorker base i)).mapIdx
        fun k d => (if (k + 1) % 2 = 0 then .transactional else .direct, decide (d = 0)) := by
  have hsound := (trace_eq_row db plan policy count entropy store events hw).1
  have hgenerator : plan.generator entropy i = Generator.ofWorker base i := by
    rw [Plan.generator, hseed]
  have hchoices := hsound.issued.choices
  rw [hgenerator, Draw.sides_eq_max] at hchoices
  exact hchoices

/-- What the store sees of a worker are its choices in order, but for a call under way. -/
lemma trace_prefix_choices (db : Database σ) (plan : Plan) (policy : FailurePolicy) (count : ℕ)
    (entropy : ℕ → Generator) (store : σ) (events : List Event) {i : ℕ} {w : Worker}
    (hw : ((launch plan policy count entropy store).run db events).workers[i]? = some w) :
    (((launch plan policy count entropy store).trace db events i).map fun s => s.request.choice) <+:
      w.choices := by
  obtain ⟨hsound, -, htrace⟩ := trace_eq_row db plan policy count entropy store events hw
  rw [htrace]
  exact hsound.prefix_row

/-- **The choices of a worker can be reproduced.** In any two pools whose plans share base seed and
odds, the choices of the workers of one index are the beginning of one another: those of the
parities and of the draws of the generator of seed and index, whatever the stores answer, however
the workers interleave and whenever they are stopped. -/
theorem choices_reproducible (db : Database σ) (db' : Database τ) (plan plan' : Plan)
    (base : UInt64) (odds : UInt32) (hseed : plan.seed = some base) (hseed' : plan'.seed = some base)
    (hodds : plan.highPriorityOdds = odds) (hodds' : plan'.highPriorityOdds = odds)
    (policy policy' : FailurePolicy) (count count' : ℕ) (entropy entropy' : ℕ → Generator)
    (store : σ) (store' : τ) (events events' : List Event) (i : ℕ) (w w' : Worker)
    (hw : ((launch plan policy count entropy store).run db events).workers[i]? = some w)
    (hw' : ((launch plan' policy' count' entropy' store').run db' events').workers[i]? = some w') :
    (w.choices <+: w'.choices ∨ w'.choices <+: w.choices) ∧
    w.choices =
      (Draw.sequence (max odds 1) w.calls.length (Generator.ofWorker base i)).mapIdx
        (fun k d => (if (k + 1) % 2 = 0 then .transactional else .direct, decide (d = 0))) ∧
    (((launch plan policy count entropy store).trace db events i).map fun s => s.request.choice) <+:
      w.choices := by
  have hchoices := choices_of_seed db hseed policy count entropy store events hw
  have hchoices' := choices_of_seed db' hseed' policy' count' entropy' store' events' hw'
  rw [hodds] at hchoices
  rw [hodds'] at hchoices'
  refine ⟨?_, hchoices, trace_prefix_choices db plan policy count entropy store events hw⟩
  rw [hchoices, hchoices']
  -- both rows begin the one sequence of the seed; the worker with fewer calls has the prefix
  rcases Nat.le_total w.calls.length w'.calls.length with hle | hle
  · exact .inl (prefix_mapIdx _ (Draw.prefix_sequence _ _ hle))
  · exact .inr (prefix_mapIdx _ (Draw.prefix_sequence _ _ hle))

/-- A worker that completes its plan, and one of the same seed and index in a larger pool, which
pauses after every call and is held up by the guard at its second one. -/
theorem choices_reproducible_at_held_guard :
    let plan : Plan := ⟨"shared", "guard", "value", 6, 0, Duration.zero, 2, false, some 7⟩
    let plan' : Plan := ⟨"other", "held", "", 100, 1, Duration.zero, 2, true, some 7⟩
    let p := launch plan .continue 2 (fun _ => Generator.ofSeed 0) Memory.fresh
    let p' := launch plan' .abort 5 (fun _ => Generator.ofSeed 1)
      (Memory.fresh.withKeyspace 3 (Table.empty.insert "held" "x"))
    let events := .start :: List.replicate 18 (.turn 1)
    ∃ w w', (p.run (Memory.databaseOf 0) events).workers[1]? = some w ∧
      (p'.run (Memory.databaseOf 3) events).workers[1]? = some w' ∧
      w.choices = [(.direct, true), (.transactional, false), (.direct, false),
        (.transactional, false), (.direct, true)] ∧
      w'.choices.length = 2 ∧ w'.choices <+: w.choices := by
  intro plan plan' p p' events
  have hend : (p.run (Memory.databaseOf 0) events).workers[1]?.map Worker.choices =
      some [(.direct, true), (.transactional, false), (.direct, false), (.transactional, false),
        (.direct, true)] := by decide +kernel
  have hend' : (p'.run (Memory.databaseOf 3) events).workers[1]?.map
      (fun w => w.choices.length) = some 2 := by decide +kernel
  obtain ⟨w, hw, hchoices⟩ := Option.map_eq_some_iff.mp hend
  obtain ⟨w', hw', hlength⟩ := Option.map_eq_some_iff.mp hend'
  refine ⟨w, w', hw, hw', hchoices, hlength, ?_⟩
  rcases (choices_reproducible _ _ plan plan' 7 2 rfl rfl rfl rfl .continue .abort 2 5 _ _ _ _
    events events 1 w w' hw hw').1 with hprefix | hprefix
  · have hle := hprefix.length_le
    rw [hchoices, hlength] at hle
    exact absurd hle (by decide)
  · exact hprefix

end Pool

end StoreSoak
