import StoreSoak.Program
import StoreSoak.Proofs.Run.Clock

/-!
The runs of a command line.

The program simulates one run of its arguments, all calls of which take no time. What is proved of
it is proved of every run that the arguments ask for, in whatever order its events come.

* `Record.deeds_ofOpening` and the lemmas with it read a record off the run that it records.
* `soakAt` is a run of the arguments at a connection, by the given events, and `Soaked` those at the
  store that the arguments name.
* `exists_soaked_eq`: the program is one of them.
-/

namespace StoreSoak

namespace Record

variable {σ : Type} {s : Setting σ} {o : Opening σ} {events : List Run.Event}

/-- Of the course of a run its record tells no more than to what end it takes the run. -/
lemma ofOpening_congr {store : σ} {course course' : Run σ → Run σ} (hopen : o.store = .ok store)
    (h : course (Run.begin s store) = course' (Run.begin s store)) :
    ofOpening s o course = ofOpening s o course' := by
  rw [ofOpening, ofOpening, hopen]
  dsimp only
  rw [h]

/-- A record with a report in it is one of a run at an open connection. -/
lemma exists_store {course : Run σ → Run σ} {report : Report}
    (h : report ∈ (ofOpening s o course).reports) : ∃ store, o.store = .ok store := by
  cases hopen : o.store with
  | error e =>
      rw [ofOpening, hopen] at h
      cases h
  | ok store => exact ⟨store, rfl⟩

section Opened

variable {store : σ} (hopen : o.store = .ok store)

include hopen

/-- The deeds of a record are those of the run, after the opening. -/
lemma deeds_ofOpening : (ofOpening s o fun r => r.run s events).deeds =
    .opened o.address o.options :: ((Run.begin s store).run s events).trail.reverse := by
  rw [ofOpening, hopen]
  rfl

lemma outcome_ofOpening : (ofOpening s o fun r => r.run s events).outcome =
    ((Run.begin s store).run s events).outcome? := by
  rw [ofOpening, hopen]
  rfl

lemma mem_reports_ofOpening {report : Report} :
    report ∈ (ofOpening s o fun r => r.run s events).reports ↔
      .reported report ∈ ((Run.begin s store).run s events).trail := by
  rw [reports, deeds_ofOpening hopen, List.mem_filterMap]
  constructor
  · rintro ⟨d, hd, heq⟩
    cases d with
    | reported t =>
        cases heq
        exact List.mem_reverse.mp ((List.mem_cons.mp hd).resolve_left nofun)
    | _ => cases heq
  · intro hmem
    exact ⟨.reported report, List.mem_cons_of_mem _ (List.mem_reverse.mpr hmem), rfl⟩

lemma contains_awaited_ofOpening :
    (ofOpening s o fun r => r.run s events).deeds.contains .awaited = true ↔
      .awaited ∈ ((Run.begin s store).run s events).trail := by
  rw [deeds_ofOpening hopen, List.contains_iff_mem]
  simp

end Opened

end Record

namespace Program

open CommandLine

variable {σ τ : Type}

/-- What is left at the end is what was printed, however the run ended. -/
lemma conclude_output (r : Record) : (conclude r).output = r.printed := by
  rw [conclude]
  cases r.outcome with
  | none => rfl
  | some outcome => cases outcome <;> rfl

lemma conclude_awaited (r : Record) : (conclude r).awaited = r.deeds.contains .awaited := by
  rw [conclude]
  cases r.outcome with
  | none => rfl
  | some outcome => cases outcome <;> rfl

/-- The run that the arguments ask for at a connection, by the given events. -/
def soakAt (world : Surroundings σ) (a : Arguments) (c : Connection τ) (o : Opening τ)
    (events : List Run.Event) : Record :=
  Record.ofOpening (setting world a c) o fun r => r.run (setting world a c) events

/-- The runs that the arguments ask for at the store that they name, in any order of events. -/
inductive Soaked (world : Surroundings σ) (a : Arguments) : Record → Prop where
  | memory (h : a.backend = .memory) (events : List Run.Event) :
      Soaked world a (soakAt world a Memory.connection
        (Memory.openAt a.address a.connectOptions) events)
  | remote (h : a.backend = .remote) (events : List Run.Event) :
      Soaked world a (soakAt world a (Remote.connection world.network a.connectOptions)
        (Remote.opening world.network a.address a.connectOptions) events)

/-- A simulated run is one of these runs, and this one comes to its end. -/
lemma exists_soakAt_eq (world : Surroundings σ) (a : Arguments) (c : Connection τ)
    (o : Opening τ) : ∃ events,
    Record.ofOpening (setting world a c) o (Run.complete (setting world a c) (fun _ => 0) none) =
      soakAt world a c o events ∧ (soakAt world a c o events).outcome ≠ none := by
  cases hopen : o.store with
  | error e =>
      refine ⟨[], ?_, ?_⟩ <;> rw [soakAt, Record.ofOpening, hopen]
      · rw [Record.ofOpening, hopen]
      · exact Option.some_ne_none _
  | ok store =>
      obtain ⟨events, hevents, outcome, ho⟩ :=
        Run.complete_ended (setting world a c) (fun _ => 0) none store
      refine ⟨events, Record.ofOpening_congr hopen hevents, ?_⟩
      rw [soakAt, Record.outcome_ofOpening hopen, ho]
      exact Option.some_ne_none _

/-- So is the program once its threads are there. -/
lemma exists_soaked_eq (world : Surroundings σ) {a : Arguments}
    (hthreads : a.workerThreads.bind threadFault? = none) :
    ∃ record, Soaked world a record ∧ record.outcome ≠ none ∧
      carryOut world a = conclude record := by
  rw [carryOut, hthreads]
  dsimp only
  rw [soak]
  cases hbackend : a.backend with
  | memory =>
      obtain ⟨events, heq, hended⟩ := exists_soakAt_eq world a Memory.connection
        (Memory.openAt a.address a.connectOptions)
      exact ⟨_, .memory hbackend events, hended, congrArg conclude heq⟩
  | remote =>
      obtain ⟨events, heq, hended⟩ := exists_soakAt_eq world a
        (Remote.connection world.network a.connectOptions)
        (Remote.opening world.network a.address a.connectOptions)
      exact ⟨_, .remote hbackend events, hended, congrArg conclude heq⟩

end Program

end StoreSoak
