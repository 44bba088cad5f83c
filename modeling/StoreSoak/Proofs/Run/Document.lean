import StoreSoak.Proofs.Pressure.Chains
import StoreSoak.Proofs.Report.RoundTrip
import StoreSoak.Proofs.Run.Order

/-!
Every report that a run puts out is told by its document.

The document tells a report whose counts have 64 bits. Those of a run have: there are as many workers
and chains as there is room for, the tally of the workers has counted what fits, and the links of the
chains are no more than the events.

* `Metered`: the numbers of a run after so many events. `Metered.stepped` says that every event keeps
  to them.
* `reported_document_tells`: whatever a run has put out, its document tells it.
-/

namespace StoreSoak

namespace Run

variable {σ : Type}

/-- The numbers of a run after so many events. -/
structure Metered (n : ℕ) (r : Run σ) : Prop where
  workers : r.pool.workers.size < Json.limit64
  chains : r.pressure.chains < Json.limit64
  links : r.pressure.total ≤ n

section Metered

variable {s : Setting σ} {r r' : Run σ} {e : Event} {n : ℕ}

lemma Metered.begin (s : Setting σ) (store : σ) : Metered 0 (begin s store) :=
  ⟨Nat.zero_lt_succ _, Nat.zero_lt_succ _, Nat.le_refl 0⟩

/-- There is room only for numbers of 64 bits. -/
lemma lt_of_room (h : crowding? s = none) :
    s.config.workers < Json.limit64 ∧ chainCount s < Json.limit64 := by
  have hchains : Breakdown.ofChains? (chainCount s) = none := by
    cases hsome : Breakdown.ofChains? (chainCount s) with
    | none => rfl
    | some b =>
        rw [crowding?, hsome] at h
        cases h
  rw [crowding?, hchains] at h
  have hworkers : Breakdown.ofWorkers? s.config.workers = none := h
  rw [Breakdown.ofChains?, ite_eq_left_iff] at hchains
  rw [Breakdown.ofWorkers?, ite_eq_left_iff] at hworkers
  have hrow : Breakdown.rowLimit < Json.limit64 := by decide
  constructor
  · by_contra hlarge
    exact absurd (hworkers (by omega)) (Option.some_ne_none _)
  · by_contra hlarge
    exact absurd (hchains (by omega)) (Option.some_ne_none _)

/-- The moves of a run leave its numbers alone, but for the launch. -/
lemma Advanced.numbers (hs : Advanced s r r') :
    (r'.pool.workers.size = r.pool.workers.size ∧ r'.pressure = r.pressure) ∨
      crowding? s = none ∧ r'.pool.workers.size = s.config.workers ∧
        r'.pressure = Pressure.start (chainCount s) := by
  -- only the launch brings workers and chains, and it has looked for room before
  cases hs with
  | refused hp hdb => exact .inl ⟨rfl, rfl⟩
  | crowded hp hdb hb => exact .inl ⟨rfl, rfl⟩
  | launch hp hdb hb =>
      refine .inr ⟨hb, ?_, rfl⟩
      show ((Array.range s.config.workers).map _).size = _
      rw [Array.size_map, Array.size_range]
  | release hp => exact .inl ⟨rfl, rfl⟩
  | gathered hp hover =>
      exact .inl ⟨congrArg Array.size (Pool.requestShutdown_workers (r.pool.note .allJoined)), rfl⟩
  | retired hp hover => exact .inl ⟨rfl, rfl⟩
  | @overflowed db o hp hdb ho =>
      exact .inl ⟨congrArg Array.size (looked_workers s r db), looked_pressure s r db⟩
  | @looked db report hp hdb ho =>
      exact .inl ⟨congrArg Array.size (looked_workers s r db), looked_pressure s r db⟩
  | unreported hp hf => exact .inl ⟨rfl, rfl⟩
  | @reported sentinel report text hp ht =>
      refine .inl ⟨?_, putText_pressure r report text⟩
      rw [putText_goTo_pool]
  | unacknowledged hp hf => exact .inl ⟨rfl, rfl⟩
  | acknowledged hp hf => exact .inl ⟨rfl, rfl⟩
  | unclosed hp hc => exact .inl ⟨rfl, rfl⟩
  | closed hp hc => exact .inl ⟨rfl, rfl⟩

/-- **Every event keeps the numbers of a run**, and counts one link at most. -/
lemma Metered.stepped (h : Metered n r) (hs : Stepped s r e r') : Metered (n + 1) r' := by
  obtain ⟨hworkers, hchains, hlinks⟩ := h
  cases hs with
  | control hs =>
      rcases hs.numbers with ⟨hsize, hpressure⟩ | ⟨hroom, hsize, hpressure⟩
      · rw [← hsize] at hworkers
        rw [← hpressure] at hchains hlinks
        exact ⟨hworkers, hchains, Nat.le_succ_of_le hlinks⟩
      · obtain ⟨hworkers', hchains'⟩ := lt_of_room hroom
        refine ⟨hsize.trans_lt hworkers', ?_, ?_⟩
        · rw [hpressure, Pressure.start, Pressure.chains, Array.size_replicate]
          exact hchains'
        · -- the counters begin at zero
          rw [hpressure, Pressure.Scene.total_eq]
          simp [Pressure.start]
  | turn hdb =>
      exact ⟨(Pool.stepped _ r.pool _).size.trans_lt hworkers, hchains, Nat.le_succ_of_le hlinks⟩
  | interrupt hdb =>
      exact ⟨(Pool.stepped _ r.pool _).size.trans_lt hworkers, hchains, Nat.le_succ_of_le hlinks⟩
  | link i =>
      -- the link goes on as in a scene of chains alone
      let scene : Pressure.Scene := ⟨r.pressure, r.pool.signals.shutdown, 0, true, 0⟩
      have hlink := Pressure.Scene.stepped scene (.link i)
      exact ⟨hworkers, hlink.chains.trans_lt hchains,
        hlink.total_le.trans (Nat.add_le_add_right hlinks 1)⟩
  | ring ha hl hdue =>
      exact ⟨(congrArg Array.size (Pool.requestShutdown_workers _)).trans_lt hworkers, hchains,
        Nat.le_succ_of_le hlinks⟩
  | cancel =>
      exact ⟨(congrArg Array.size (Pool.requestShutdown_workers _)).trans_lt hworkers, hchains,
        Nat.le_succ_of_le hlinks⟩
  | tick d => exact ⟨hworkers, hchains, Nat.le_succ_of_le hlinks⟩
  | idle => exact ⟨hworkers, hchains, Nat.le_succ_of_le hlinks⟩

lemma Metered.run (h : Metered n r) (events : List Event) :
    Metered (n + events.length) (r.run s events) := by
  induction events generalizing n r with
  | nil => exact h
  | cons e events ih =>
      have hrest := ih (h.stepped (Run.stepped s r e))
      rwa [List.length_cons, Nat.add_comm events.length, ← Nat.add_assoc]

end Metered

/-- A report is put out only after the look for the sentinel key. -/
lemma InOrder.exists_lookedUp {s : Setting σ} {deeds : List Deed} (h : InOrder s deeds)
    {report : Report} (hreported : .reported report ∈ deeds) :
    ∃ now, .lookedUp s.config.sentinelKey now ∈ deeds := by
  cases h with
  | begun => cases hreported
  | selected => simp at hreported
  | lookedUp now => exact ⟨now, by simp⟩
  | reported now => exact ⟨now, by simp⟩
  | awaited now => exact ⟨now, by simp⟩
  | closed now => exact ⟨now, by simp⟩

/-- **Every report that a run puts out is told by its document**: at every setting, store and
schedule of fewer than `2 ^ 64` events. -/
theorem reported_document_tells (s : Setting σ) (store : σ) {events : List Event}
    (hevents : events.length < Json.limit64) {report : Report}
    (hreported : .reported report ∈ ((begin s store).run s events).deeds) :
    Report.Tells report.document report.toJson report := by
  obtain ⟨now, hnow⟩ := (run_course s store events).inOrder.exists_lookedUp hreported
  obtain ⟨before, after, db, rfl, hlooks, hbound⟩ := exists_look hnow
  have hmetered := (Metered.begin s store).run (s := s) before
  rw [List.length_append, List.length_cons] at hevents
  refine Report.tells_document (Report.fits_of_accounts ?_ hmetered.chains ?_
    (hbound.1 report hreported))
  · obtain ⟨rs, hrs⟩ := Pool.exists_reports hlooks.gone.isOver
    rw [accounts, hrs, Option.getD_some, Pool.length_reports hrs]
    exact hmetered.workers
  · have hlinks := hmetered.links
    rw [accounts]
    dsimp only
    omega

end Run

end StoreSoak
