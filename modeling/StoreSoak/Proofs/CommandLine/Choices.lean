import StoreSoak.Proofs.CommandLine.Words

/-!
What the choices of a command line come to.

Every choice settles one field of the arguments, and no other choice touches it. So where no name is
chosen twice, a field has the value of its choice if there is one among them, wherever it stands, and
its default if there is none.

* `Gives` says this of one field, and `gives_foldl` that it holds of all choices together.
* `Arguments.Follow` is what the options of the connection and the configuration of the run are,
  field by field.
* `line_reaches_run`: a line of choices is accepted, and the run is given what it says.
-/

namespace StoreSoak.CommandLine

variable {α β γ : Type} {cs : List Choice}

/-! ### One field -/

/-- A field has the value of the choice that is made for it, and its default if there is none. -/
structure Gives (cs : List Choice) (choice : α → Choice) (value : α → β) (default v : β) :
    Prop where
  chosen : ∀ x, choice x ∈ cs → v = value x
  unsaid : (∀ x, choice x ∉ cs) → v = default

/-- What is read off a field follows from its choice too. -/
lemma Gives.map {choice : α → Choice} {value : α → β} {default v : β}
    (h : Gives cs choice value default v) (f : β → γ) {value' : α → γ}
    (hvalue : ∀ x, choice x ∈ cs → f (value x) = value' x) :
    Gives cs choice value' (f default) (f v) where
  chosen x hx := by rw [h.chosen x hx, hvalue x hx]
  unsaid hno := by rw [h.unsaid hno]

/-- A field that the choices of one name settle, and others leave alone. -/
structure Settles (name : Name) (choice : α → Choice) (value : α → β) (field : Arguments → β) :
    Prop where
  named : ∀ x : α, (choice x).name = name := by
    intro x
    rfl
  settled : ∀ (a : Arguments) (x : α), field (a.choose (choice x)) = value x := by
    intro a x
    rfl
  kept : ∀ (a : Arguments) (c : Choice), (∀ x, choice x ≠ c) → field (a.choose c) = field a := by
    intro a c h
    cases c <;> first | rfl | exact absurd rfl (h _) | exact absurd rfl (h ())

/-- Where no name is chosen twice, the choices together give a field what its own choice says. -/
lemma gives_foldl {name : Name} {choice : α → Choice} {value : α → β} {field : Arguments → β}
    (h : Settles name choice value field) (hcs : (cs.map Choice.name).Nodup) (a : Arguments) :
    Gives cs choice value (field a) (field (cs.foldl Arguments.choose a)) := by
  induction cs generalizing a with
  | nil => exact ⟨fun x hx => absurd hx List.not_mem_nil, fun _ => rfl⟩
  | cons c cs ih =>
      rw [List.map_cons, List.nodup_cons] at hcs
      have hrest := ih hcs.2 (a.choose c)
      rw [List.foldl_cons]
      refine ⟨fun x hx => ?_, fun hno => ?_⟩
      · rcases List.mem_cons.mp hx with rfl | hx
        · -- no later choice has the same name
          have hno : ∀ y, choice y ∉ cs := fun y hy => hcs.1 <| by
            rw [h.named x, ← h.named y]
            exact List.mem_map_of_mem hy
          rw [hrest.unsaid hno, h.settled]
        · exact hrest.chosen x hx
      · rw [hrest.unsaid fun x hx => hno x (List.mem_cons_of_mem c hx)]
        exact h.kept a c fun x hx => hno x (hx ▸ List.mem_cons_self)

/-- A switch is on exactly if it is given. -/
lemma Gives.switch {c : Choice} {v : Bool}
    (h : Gives cs (fun _ : Unit => c) (fun _ => true) false v) : v = true ↔ c ∈ cs := by
  constructor
  · intro hv
    by_contra hno
    rw [h.unsaid fun _ => hno] at hv
    cases hv
  · exact fun hc => h.chosen () hc

/-! ### All fields -/

/-- The arguments follow the choices: what the connection and the run are given is what they say,
milliseconds and seconds as so many nanoseconds, and the default where they say nothing. -/
structure Arguments.Follow (a : Arguments) (cs : List Choice) : Prop where
  address : Gives cs .address id Config.defaultAddress a.address
  backend : Gives cs .backend id .remote a.backend
  report : Gives cs .report id .text a.report
  workerThreads : Gives cs .workerThreads some none a.workerThreads
  syncTimeout : Gives cs .syncTimeout (· * 1000000) ConnectOptions.default.syncTimeout.nanoseconds
    a.connectOptions.syncTimeout.nanoseconds
  database : Gives cs .database id ({} : Config).database a.config.database
  sameDatabase : a.connectOptions.database = a.config.database
  workers : Gives cs .workers id ({} : Config).workers a.config.workers
  iterations : Gives cs .iterations id ({} : Config).maxIterations a.config.maxIterations
  throttleInterval :
    Gives cs .throttleInterval id ({} : Config).throttleInterval a.config.throttleInterval
  throttlePause : Gives cs .throttlePause (· * 1000000) ({} : Config).throttlePause.nanoseconds
    a.config.throttlePause.nanoseconds
  highPriorityOdds :
    Gives cs .highPriorityOdds id ({} : Config).highPriorityOdds a.config.highPriorityOdds
  seed : Gives cs .seed some ({} : Config).seed a.config.seed
  /-- Pressure that is switched off is so whatever number of chains is asked for. -/
  noPressure : .noPressure ∈ cs → a.config.chains = .fixed 0
  pressureUnits : .noPressure ∉ cs →
    Gives cs .pressureUnits .fixed ({} : Config).chains a.config.chains
  failurePolicy : Gives cs .failurePolicy id ({} : Config).failurePolicy a.config.failurePolicy
  strictGuard : a.config.strictGuard = true ↔ .strictGuard ∈ cs
  duration : Gives cs .duration (fun n => some (n * 1000000000))
    (({} : Config).deadline.map Duration.nanoseconds) (a.config.deadline.map Duration.nanoseconds)
  noWait : a.config.waitForAck = true ↔ .noWait ∉ cs
  /-- No option is about the keys and the value that is written. -/
  keys : (a.config.sharedKey, a.config.guardKey, a.config.sentinelKey, a.config.payload) =
    (({} : Config).sharedKey, ({} : Config).guardKey, ({} : Config).sentinelKey,
      ({} : Config).payload)

/-- Where no name is chosen twice, the arguments follow the choices. -/
lemma Arguments.follow_foldl (hnodup : (cs.map Choice.name).Nodup) (hcs : ∀ c ∈ cs, c.Writable) :
    (cs.foldl Arguments.choose {}).Follow cs := by
  have haddress : Settles .address .address id Arguments.address := {}
  have hbackend : Settles .backend .backend id Arguments.backend := {}
  have hreport : Settles .report .report id Arguments.report := {}
  have hthreads : Settles .workerThreads .workerThreads some Arguments.workerThreads := {}
  have htimeout : Settles .syncTimeout .syncTimeout id Arguments.syncTimeout := {}
  have hdatabase : Settles .database .database id Arguments.database := {}
  have hworkers : Settles .workers .workers id Arguments.workers := {}
  have hiterations : Settles .iterations .iterations id Arguments.iterations := {}
  have hinterval : Settles .throttleInterval .throttleInterval id Arguments.throttleInterval := {}
  have hpause : Settles .throttlePause .throttlePause id Arguments.throttlePause := {}
  have hodds : Settles .highPriorityOdds .highPriorityOdds id Arguments.highPriorityOdds := {}
  have hseed : Settles .seed .seed some Arguments.seed := {}
  have hunits : Settles .pressureUnits .pressureUnits some Arguments.pressureUnits := {}
  have hpolicy : Settles .failurePolicy .failurePolicy id Arguments.failurePolicy := {}
  have hduration : Settles .duration .duration some Arguments.duration := {}
  -- a switch has no value: what it settles is that it is there
  have hnoPressure : Settles .noPressure (fun _ : Unit => .noPressure) (fun _ => true)
    Arguments.noPressure := {}
  have hstrict : Settles .strictGuard (fun _ : Unit => .strictGuard) (fun _ => true)
    Arguments.strictGuard := {}
  have hnoWait : Settles .noWait (fun _ : Unit => .noWait) (fun _ => true)
    Arguments.noWait := {}
  have hoff := (gives_foldl hnoPressure hnodup {}).switch
  have hwait := (gives_foldl hnoWait hnodup {}).switch
  exact {
    address := gives_foldl haddress hnodup {}
    backend := gives_foldl hbackend hnodup {}
    report := gives_foldl hreport hnodup {}
    workerThreads := gives_foldl hthreads hnodup {}
    syncTimeout := (gives_foldl htimeout hnodup {}).map
      (fun n => (Duration.ofMilliseconds n).nanoseconds)
      fun n hn => Duration.nanoseconds_ofMilliseconds (hcs _ hn).inRange
    database := gives_foldl hdatabase hnodup {}
    sameDatabase := rfl
    workers := gives_foldl hworkers hnodup {}
    iterations := gives_foldl hiterations hnodup {}
    throttleInterval := gives_foldl hinterval hnodup {}
    throttlePause := (gives_foldl hpause hnodup {}).map
      (fun n => (Duration.ofMilliseconds n).nanoseconds)
      fun n hn => Duration.nanoseconds_ofMilliseconds (hcs _ hn).inRange
    highPriorityOdds := gives_foldl hodds hnodup {}
    seed := gives_foldl hseed hnodup {}
    noPressure := fun hmem => if_pos (hoff.mpr hmem)
    pressureUnits := fun hno => by
      -- where pressure is left on, its chains are told by the number asked for alone
      have hchains : (cs.foldl Arguments.choose {}).config.chains =
          (cs.foldl Arguments.choose {}).pressureUnits.elim .perProcessor .fixed := by
        refine (if_neg fun h => hno (hoff.mp h)).trans ?_
        cases (cs.foldl Arguments.choose {}).pressureUnits <;> rfl
      rw [hchains]
      exact (gives_foldl hunits hnodup {}).map (Option.elim · .perProcessor ChainCount.fixed)
        fun _ _ => rfl
    failurePolicy := gives_foldl hpolicy hnodup {}
    strictGuard := (gives_foldl hstrict hnodup {}).switch
    duration := (gives_foldl hduration hnodup {}).map
      (fun s => (s.map Duration.ofSeconds).map Duration.nanoseconds)
      fun n hn => congrArg some (Duration.nanoseconds_ofSeconds (hcs _ hn).inRange)
    noWait := by
      rw [← hwait]
      show (!(cs.foldl Arguments.choose {}).noWait) = true ↔ _
      simp
    keys := rfl }

/-! ### Whole lines -/

/-- **A command line reaches the run unchanged.** Choices of different names, with values that their
options can hold and in whatever order, are accepted as words, and the connection and the run are
given exactly what they say. Choices of which two have one name are refused; and so is every other
line, in whatever form it gives a name twice. -/
theorem line_reaches_run :
    (∀ cs : List Choice, (∀ c ∈ cs, c.Writable) →
      ((cs.map Choice.name).Nodup →
        ∃ a, parse (cs.map Choice.word) = .ok a ∧ a.Follow cs) ∧
      (¬ (cs.map Choice.name).Nodup →
        parse (cs.map Choice.word) = .error .argumentConflict)) ∧
      ∀ (words : List String) (a : Arguments), parse words = .ok a →
        (words.filterMap Progress.named?).Nodup := by
  refine ⟨fun cs hcs => ⟨fun hnodup => ?_, fun htwice => ?_⟩, fun words a => nodup_of_parse⟩
  · exact ⟨_, by rw [parse_words hcs, if_pos hnodup], Arguments.follow_foldl hnodup hcs⟩
  · rw [parse_words hcs, if_neg htwice]

/-- A line that switches pressure off after it has asked for it, and one that asks for it twice. -/
theorem line_reaches_run_at_override :
    let cs : List Choice := [.pressureUnits 7, .seed 99, .noPressure, .database (-3),
      .duration 18446744073709551615, .noWait, .address "redis://h?x=1"]
    (∀ c ∈ cs, c.Writable) ∧ (cs.map Choice.name).Nodup ∧
      (∃ a, parse ["--pressure-units=7", "--seed=99", "--no-pressure", "--database=-3",
          "--duration=18446744073709551615", "--no-wait", "--address=redis://h?x=1"] = .ok a ∧
        a.config.chains = .fixed 0 ∧ a.config.seed = some 99 ∧ a.config.workers = 1000 ∧
        a.config.database = -3 ∧ a.connectOptions.database = -3 ∧
        a.config.deadline.map Duration.nanoseconds = some 18446744073709551615000000000 ∧
        ¬ a.config.waitForAck ∧ a.address = "redis://h?x=1" ∧
        (["--pressure-units=7", "--seed=99", "--no-pressure", "--database=-3",
          "--duration=18446744073709551615", "--no-wait",
          "--address=redis://h?x=1"].filterMap Progress.named?).Nodup) ∧
      ¬ ((cs ++ [Choice.pressureUnits 7]).map Choice.name).Nodup ∧
      parse ((cs ++ [Choice.pressureUnits 7]).map Choice.word) = .error .argumentConflict := by
  intro cs
  have hwritable : ∀ c ∈ cs ++ [Choice.pressureUnits 7], c.Writable := by
    intro c hc
    fin_cases hc <;> refine ⟨?_, fun i hi => ?_⟩
    all_goals first | trivial | (cases hi <;> decide) | (show (_ : ℕ) < _; decide)
  have hcs : ∀ c ∈ cs, c.Writable := fun c hc => hwritable c (List.mem_append_left _ hc)
  have hnodup : (cs.map Choice.name).Nodup := by decide
  have htwice : ¬ ((cs ++ [Choice.pressureUnits 7]).map Choice.name).Nodup := by decide
  obtain ⟨a, ha, hfollow⟩ := (line_reaches_run.1 cs hcs).1 hnodup
  have hwords : cs.map Choice.word = ["--pressure-units=7", "--seed=99", "--no-pressure",
      "--database=-3", "--duration=18446744073709551615", "--no-wait",
      "--address=redis://h?x=1"] := by decide +kernel
  rw [hwords] at ha
  have hworkers : ∀ n, .workers n ∉ cs := fun n hn => by simp [cs] at hn
  refine ⟨hcs, hnodup, ⟨a, ha, hfollow.noPressure (by decide), hfollow.seed.chosen 99 (by decide),
    hfollow.workers.unsaid hworkers, ?_, ?_, ?_, ?_, ?_, line_reaches_run.2 _ a ha⟩, htwice,
    (line_reaches_run.1 _ hwritable).2 htwice⟩
  · exact hfollow.database.chosen (-3) (by decide)
  · rw [hfollow.sameDatabase]
    exact hfollow.database.chosen (-3) (by decide)
  · exact hfollow.duration.chosen 18446744073709551615 (by decide)
  · rw [hfollow.noWait]
    decide
  · exact hfollow.address.chosen _ (by decide)

end StoreSoak.CommandLine
