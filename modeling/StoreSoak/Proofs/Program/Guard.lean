import StoreSoak.Proofs.CommandLine.Range
import StoreSoak.Proofs.Program.Runs
import StoreSoak.Proofs.Run.Unopposed

/-!
The guard of the store inside the process is never written.

The command line offers no keys, and the default ones differ. So a run that it asks for at the store
inside the process never meets its guard, and comes out well whatever else is asked for.

* `Run.Undisturbed` is what holds at every moment of a run that finds no guard.
* `Program.soakBy` is the run that a command line asks for, in any order of its events, and
  `Program.Accommodated` what such a run needs to end with `Program.Succeeded`.
* `Program.guard_never_written` is the whole of it, from the store up to the exit code.
-/

namespace StoreSoak

namespace Run

/-- What holds at every moment of a run that finds no guard. -/
structure Undisturbed (s : Setting Memory) (store : Memory) (r : Run Memory) : Prop where
  /-- The store is as it was at first, but for the shared key. -/
  kept : r.pool.store.Kept s.config.plan s.config.database store
  worker : ∀ {i : ℕ} {w : Worker}, r.pool.workers[i]? = some w →
    w.Unopposed ∧ w.tally.totals.aborted = 0
  /-- There is room for what few workers count in a short time. -/
  fits : s.config.workers * s.config.plan.last < Totals.counterLimit →
    s.config.workers * r.pool.now < Duration.limit → r.pool.totals.Fits
  concluded : ∀ o, r.outcome? = some o → Concluded s r o

variable {s : Setting Memory} {store : Memory}

lemma run_undisturbed (hg : Unguarded s store) {events : List Event}
    (hnow : ((begin s store).run s events).pool.now < Duration.limit) :
    Undisturbed s store ((begin s store).run s events) := by
  have hclear := run_clear hg hnow
  exact ⟨hclear.pool.kept,
    fun hw => ⟨hclear.pool.worker hw, (hclear.pool.worker hw).aborted
      (hclear.pool.launched.sound hw)⟩,
    hclear.fits (run_size_le s store events), fun _ ho => hclear.concluded ho⟩

end Run

namespace Program

open CommandLine

variable {σ : Type}

/-- The run that the arguments ask for at the store inside the process, by the given events. -/
def soakBy (world : Surroundings σ) (a : Arguments) (events : List Run.Event) : Record :=
  let setting := setting world a Memory.connection
  Record.ofOpening setting (Memory.openAt a.address a.connectOptions) fun r => r.run setting events

/-- What a run needs that is to end well: it has come to its end, there was room for its workers and
chains and for what the workers have counted together, the time is one that a duration holds, and
the operator is heard where he is waited for. -/
structure Accommodated (world : Surroundings σ) (a : Arguments) (r : Record) : Prop where
  ended : r.outcome ≠ none
  room : Run.crowding? (setting world a Memory.connection) = none
  timely : r.now < Duration.limit
  fits : (r.workers.toList.map fun w : Worker => w.tally.totals).sum.Fits
  heard : a.noWait = false → Run.acknowledge world.input = .ok ()

/-- A run that ends well: with a report that tells of no failure, and that was put out. -/
structure Succeeded (world : Surroundings σ) (a : Arguments) (r : Record) : Prop where
  exitCode : (conclude r).exitCode = 0
  report : ∃ report ∈ r.reports, r.outcome = some (.finished report) ∧
    Run.Faultless (setting world a Memory.connection) report

variable {world : Surroundings σ} {a : Arguments}

/-- The command line leaves the keys as they are, and nothing is stored at first. -/
lemma unguarded (world : Surroundings σ) (h : a.InRange) :
    Run.Unguarded (setting world a Memory.connection) Memory.fresh := by
  refine ⟨rfl, rfl, rfl, ?_, Nat.le_of_lt h.iterations⟩
  show Config.defaultGuardKey ≠ Config.defaultSharedKey
  decide

lemma soakBy_now (world : Surroundings σ) (a : Arguments) (events : List Run.Event) :
    (soakBy world a events).now =
      ((Run.begin (setting world a Memory.connection) Memory.fresh).run
        (setting world a Memory.connection) events).pool.now := rfl

lemma soakBy_totals (world : Surroundings σ) (a : Arguments) (events : List Run.Event) :
    ((soakBy world a events).workers.toList.map fun w : Worker => w.tally.totals).sum =
      ((Run.begin (setting world a Memory.connection) Memory.fresh).run
        (setting world a Memory.connection) events).pool.totals := rfl

/-- A run with everything it needs ends well. -/
lemma Accommodated.succeeded (ha : a.InRange) {events : List Run.Event}
    (h : Accommodated world a (soakBy world a events)) :
    Succeeded world a (soakBy world a events) := by
  have hrun := Run.run_undisturbed (unguarded world ha) (soakBy_now world a events ▸ h.timely)
  obtain ⟨o, ho⟩ := Option.ne_none_iff_exists'.mp h.ended
  obtain ⟨report, hmem, hfaultless, hfinished⟩ := (hrun.concluded o ho).reported h.room
    (soakBy_totals world a events ▸ h.fits)
  -- the report always goes out, whatever its form
  have hreported : ∃ text, reporter a.report report = .ok text := by
    cases a.report <;> exact ⟨_, rfl⟩
  have heard : (!a.noWait) = true → Run.acknowledge world.input = .ok () :=
    fun hwait => h.heard (by rwa [Bool.not_eq_true'] at hwait)
  rw [hfinished hreported heard] at ho
  refine ⟨?_, report, (Record.mem_reports_ofOpening rfl).mpr hmem, ho, hfaultless⟩
  rw [conclude, ho]

/-- The program is one of these runs, and this one comes to its end. -/
lemma exists_run_eq {words : List String} (ha : parse words = .ok a) (hmemory : a.backend = .memory)
    (hthreads : a.workerThreads.bind threadFault? = none) :
    ∃ events, run world words = conclude (soakBy world a events) ∧
      (soakBy world a events).outcome ≠ none := by
  obtain ⟨record, hsoaked, hended, hrun⟩ := exists_soaked_eq world hthreads
  cases hsoaked with
  | memory h events =>
      refine ⟨events, ?_, hended⟩
      rw [run, ha]
      exact hrun
  | remote h events =>
      rw [hmemory] at h
      cases h

/-- **The guard is never written.** A run that finds no guard is undisturbed at every moment that a
duration can tell, and comes to its end from there. So are all runs that a command line asks for at
the store inside the process, and those end well that have the room and the operator they need; the
program itself is one of them once its threads are there. -/
theorem guard_never_written :
    (∀ (s : Setting Memory) (store : Memory), Run.Unguarded s store → ∀ events,
      (((Run.begin s store).run s events).pool.now < Duration.limit →
        Run.Undisturbed s store ((Run.begin s store).run s events)) ∧
      ∃ more, (∀ e ∈ more, e ≠ .cancel) ∧
        ∃ o, ((Run.begin s store).run s (events ++ more)).outcome? = some o) ∧
    ∀ {σ : Type} (world : Surroundings σ) (words : List String) (a : Arguments),
      parse words = .ok a → a.backend = .memory →
        Run.Unguarded (setting world a Memory.connection) Memory.fresh ∧
        (∀ events, Accommodated world a (soakBy world a events) →
          Succeeded world a (soakBy world a events)) ∧
        (a.workerThreads.bind threadFault? = none → ∃ events,
          run world words = conclude (soakBy world a events) ∧
            (soakBy world a events).outcome ≠ none) := by
  refine ⟨fun s store hg events => ⟨fun hnow => Run.run_undisturbed hg hnow,
    Run.exists_outcome s store events⟩, fun world words a ha hmemory => ?_⟩
  exact ⟨unguarded world (parse_inRange ha), fun _ h => h.succeeded (parse_inRange ha),
    fun hthreads => exists_run_eq ha hmemory hthreads⟩

/-- One of two strict workers completes, the other one is stopped while its first call is out. -/
theorem guard_never_written_at_stopped_worker :
    let words := ["--backend", "memory", "--workers", "2", "--iterations", "3", "--strict-guard",
      "--no-pressure", "--no-wait"]
    let a : Arguments :=
      { backend := .memory, workers := 2, iterations := 3, strictGuard := true, noPressure := true
        noWait := true }
    let world : Surroundings Unit :=
      { processors := 1
        entropy := fun _ => ⟨Key.ofSeed 0, 0, [0, 0]⟩
        network := ⟨fun _ => .error ⟨.connectionRefused, none⟩, fun _ u => (.gone, u)⟩
        input := [] }
    let events : List Run.Event := List.flatten
      [List.replicate 2 .control, List.flatten (List.replicate 9 [.turn 0, .tick 7]),
        List.replicate 3 (.turn 1), [.cancel], List.replicate 3 (.turn 1),
        List.replicate 5 .control]
    parse words = .ok a ∧ (soakBy world a events).now = 63 ∧
      Run.Undisturbed (setting world a Memory.connection) Memory.fresh
        ((Run.begin (setting world a Memory.connection) Memory.fresh).run
          (setting world a Memory.connection) events) ∧
      Accommodated world a (soakBy world a events) ∧
      Succeeded world a (soakBy world a events) ∧
      ∃ events, run world words = conclude (soakBy world a events) ∧
        (soakBy world a events).outcome ≠ none := by
  intro words a world events
  obtain ⟨hruns, hlines⟩ := guard_never_written
  have ha : parse words = .ok a := by decide +kernel
  obtain ⟨hended, hnow⟩ :
      (soakBy world a events).outcome ≠ none ∧ (soakBy world a events).now = 63 := by
    decide +kernel
  obtain ⟨hg, hsucceeded, hcarried⟩ := hlines world words a ha rfl
  have hundisturbed := (hruns (setting world a Memory.connection) Memory.fresh hg events).1
    (by rw [← soakBy_now, hnow]; decide)
  -- the run was short, so there is room for what its two workers have counted
  have hfits := hundisturbed.fits (by decide) (by rw [← soakBy_now, hnow]; decide)
  have haccommodated : Accommodated world a (soakBy world a events) := by
    refine ⟨hended, by decide, by rw [hnow]; decide, ?_, nofun⟩
    rw [soakBy_totals]
    exact hfits
  exact ⟨ha, hnow, hundisturbed, haccommodated, hsucceeded events haccommodated, hcarried rfl⟩

/-- Without a guard a run still breaks down where there is no room for its workers, or for the time
that they have waited for their answers together. -/
theorem broken_without_guard :
    (let words := ["--backend", "memory", "--no-wait", "--no-pressure", "--workers",
        "1152921504606846976", "--iterations", "1", "--strict-guard"]
      let a : Arguments :=
        { backend := .memory, workers := 1152921504606846976, iterations := 1
          strictGuard := true, noPressure := true, noWait := true }
      let world : Surroundings Unit :=
        { processors := 1
          entropy := fun _ => ⟨Key.ofSeed 0, 0, []⟩
          network := ⟨fun _ => .error ⟨.connectionRefused, none⟩, fun _ u => (.gone, u)⟩
          input := [] }
      parse words = .ok a ∧
        Run.Unguarded (setting world a Memory.connection) Memory.fresh ∧
        (soakBy world a [.control]).outcome = some (.broken .tooManyWorkers) ∧
        (run world words).exitCode = breakdownCode) ∧
    (let s : Setting Memory :=
        { config := { workers := 2, maxIterations := 2, chains := .fixed 0, waitForAck := false }
          processors := 1
          entropy := fun _ => ⟨Key.ofSeed 0, 0, [0]⟩
          connection := Memory.connection
          reporter := fun _ => .ok ""
          input := [] }
      let r := (Run.begin s Memory.fresh).run s (List.flatten
        [List.replicate 2 .control, List.flatten (List.replicate 3 [.turn 0, .turn 1]),
          [.tick (Duration.limit - 1)], List.flatten (List.replicate 3 [.turn 0, .turn 1]),
          List.replicate 3 .control])
      Run.Unguarded s Memory.fresh ∧ r.pool.now < Duration.limit ∧
        r.outcome? = some (.broken (.overflow .latency))) := by
  refine ⟨⟨by decide +kernel, ⟨rfl, rfl, rfl, by decide, by decide⟩, by decide +kernel,
    by decide +kernel⟩, ⟨rfl, rfl, rfl, by decide, by decide⟩, by decide +kernel, by decide +kernel⟩

end Program

end StoreSoak
