import StoreSoak.Proofs.Run.Progress

/-!
Chains neither multiply nor vanish.

Every chain hands one sender on from link to link, and drops it with its last link. The chains are
waited for until there is no sender left.

* A `Scene` is a generator of chains at work: its chains are submitted one by one while the first of
  them are already going on, and the shutdown signal is raised at some moment or not at all.
* `Stepped` lists what an event does to a scene.
* `Scene.Sound` is what holds at every moment. `ceiling` is how far the counter of a chain gets at
  least, and once the shutdown signal is raised at most.
* `chains_retire`: what becomes of the chains, and when they can be joined.
* `start_turns` says it of the running `Pressure.start`, which submits all chains at once
  (`Scene.run_submit`), and of its `isOver`.
-/

namespace StoreSoak

namespace Pressure

/-- The links of a chain that live. -/
def linksOf (p : Pressure) (c : ℕ) : ℕ :=
  p.links.toList.countP fun l => l.chain = c

/-- The links of a chain that live and have not counted themselves yet. -/
def uncounted (p : Pressure) (c : ℕ) : ℕ :=
  p.links.toList.countP fun l => l.chain = c && l.stage ≠ .counted

/-- The counter of a chain. -/
def counter (p : Pressure) (c : ℕ) : ℕ :=
  p.counters.getD c 0

/-- The first link of a chain is put in the queue. -/
def submit (p : Pressure) (c : ℕ) : Pressure :=
  { p with links := p.links.push ⟨c, .queued⟩ }

/-- A generator of chains at work. -/
structure Scene where
  pressure : Pressure
  /-- The shutdown signal has been raised. -/
  shutdown : Bool
  /-- The number of chains whose first link was submitted. -/
  submitted : ℕ
  /-- All chains were submitted, and the generator has given its own sender up. -/
  started : Bool
  /-- The senders of the channel on which the chains are waited for. -/
  senders : ℕ
  deriving DecidableEq, Repr

/-- The chains after the links at the given places went on, one after the other. -/
def turns (p : Pressure) (shutdown : Bool) (places : List ℕ) : Pressure :=
  places.foldl (fun p i => (p.step shutdown i).1) p

namespace Scene

/-- What can happen to a scene. -/
inductive Event where
  /-- The next chain is submitted; its first link gets a sender of its own. -/
  | submit
  /-- The generator is handed out. -/
  | handOut
  /-- The link at a place goes on. -/
  | link (place : ℕ)
  /-- The shutdown signal is raised. -/
  | shutdown
  deriving DecidableEq, Repr

/-- A generator of so many chains before the first of them, with the one sender of its channel. The
shutdown signal may have been raised before. -/
def opened (units : ℕ) (shutdown : Bool) : Scene :=
  ⟨⟨Array.replicate units 0, #[]⟩, shutdown, 0, false, 1⟩

/-- Whether the link at a place is the last one of its chain at its next turn: it has counted
itself and finds the shutdown signal raised. -/
def endsAt (s : Scene) (i : ℕ) : Bool :=
  s.shutdown && s.pressure.links[i]?.any fun l => l.stage = .counted

/-- The scene after an event. A link that submits the next one hands its sender on, the last one
drops it. -/
def step (s : Scene) : Event → Scene
  | .submit =>
    if s.submitted < s.pressure.chains then
      { s with
        pressure := s.pressure.submit s.submitted
        submitted := s.submitted + 1
        senders := s.senders + 1 }
    else s
  | .handOut =>
    if s.submitted = s.pressure.chains && !s.started then
      { s with started := true, senders := s.senders - 1 }
    else s
  | .link i =>
    { s with
      pressure := (s.pressure.step s.shutdown i).1
      senders := if s.endsAt i then s.senders - 1 else s.senders }
  | .shutdown => { s with shutdown := true }

/-- The scene after events in order. -/
def run (s : Scene) (events : List Event) : Scene :=
  events.foldl step s

/-- What the wait for the chains comes back with, once no sender is left. -/
def join? (s : Scene) : Option ℕ :=
  if s.started && s.senders = 0 then some s.pressure.total else none

/-- By the event the last link of the chain observes the shutdown signal. -/
def Observes (s : Scene) (e : Event) (c : ℕ) : Prop :=
  s.shutdown = true ∧ ∃ i, e = .link i ∧ s.pressure.links[i]? = some ⟨c, .counted⟩

/-- In the course of the events a link of the chain has observed the shutdown signal. -/
def Observed (s : Scene) (events : List Event) (c : ℕ) : Prop :=
  ∃ before e after, events = before ++ e :: after ∧ (s.run before).Observes e c

@[simp] lemma run_nil (s : Scene) : s.run [] = s := rfl

@[simp] lemma run_cons (s : Scene) (e : Event) (events : List Event) :
    s.run (e :: events) = (s.step e).run events := rfl

lemma run_append (s : Scene) (before after : List Event) :
    s.run (before ++ after) = (s.run before).run after := by
  rw [run, run, run, List.foldl_append]

lemma observed_cons {s : Scene} {e : Event} {events : List Event} {c : ℕ} :
    s.Observed (e :: events) c ↔ s.Observes e c ∨ (s.step e).Observed events c := by
  constructor
  · rintro ⟨before, e', after, hevents, hobserves⟩
    cases before with
    | nil =>
        cases hevents
        exact .inl hobserves
    | cons e'' before =>
        cases hevents
        exact .inr ⟨before, e', after, rfl, hobserves⟩
  · rintro (hobserves | ⟨before, e', after, rfl, hobserves⟩)
    · exact ⟨[], e, events, rfl, hobserves⟩
    · exact ⟨e :: before, e', after, rfl, hobserves⟩

/-! ### The rules -/

section Row

variable {links : Array Link} {l : Link} {before after : List Link}

/-- The link at a place stands between those before and those after it. -/
lemma exists_between {i : ℕ} (h : links[i]? = some l) :
    ∃ before after, links.toList = before ++ l :: after ∧ before.length = i := by
  rw [← Array.getElem?_toList] at h
  obtain ⟨hi, rfl⟩ := List.getElem?_eq_some_iff.mp h
  refine ⟨links.toList.take i, links.toList.drop (i + 1), ?_, List.length_take_of_le hi.le⟩
  rw [List.getElem_cons_drop, List.take_append_drop]

lemma getElem?_between (h : links.toList = before ++ l :: after) :
    links[before.length]? = some l := by
  rw [← Array.getElem?_toList, h]
  simp

lemma set_between (h : links.toList = before ++ l :: after) (l' : Link) :
    links.setIfInBounds before.length l' = (before ++ l' :: after).toArray := by
  refine Array.toList_inj.mp ?_
  rw [Array.toList_setIfInBounds, h]
  simp

lemma erase_between (h : links.toList = before ++ l :: after) :
    links.eraseIdxIfInBounds before.length = (before ++ after).toArray := by
  refine Array.toList_inj.mp ?_
  rw [Array.toList_eraseIdxIfInBounds, h, List.eraseIdx_append_of_length_le (Nat.le_refl _)]
  simp

end Row

/-- What an event does to a scene; the link that goes on stands between the others. -/
inductive Stepped (s : Scene) : Event → Scene → Prop where
  | submit (h : s.submitted < s.pressure.chains) :
      Stepped s .submit
        { s with
          pressure := s.pressure.submit s.submitted
          submitted := s.submitted + 1
          senders := s.senders + 1 }
  | handOut (h : s.submitted = s.pressure.chains) (hstarted : s.started = false) :
      Stepped s .handOut { s with started := true, senders := s.senders - 1 }
  | yield {c : ℕ} {before after : List Link}
      (hl : s.pressure.links.toList = before ++ ⟨c, .queued⟩ :: after) :
      Stepped s (.link before.length)
        { s with pressure := ⟨s.pressure.counters, (before ++ ⟨c, .yielded⟩ :: after).toArray⟩ }
  | count {c : ℕ} {before after : List Link}
      (hl : s.pressure.links.toList = before ++ ⟨c, .yielded⟩ :: after) :
      Stepped s (.link before.length)
        { s with
          pressure := ⟨s.pressure.counters.modify c (· + 1),
            (before ++ ⟨c, .counted⟩ :: after).toArray⟩ }
  | handOn {c : ℕ} {before after : List Link}
      (hl : s.pressure.links.toList = before ++ ⟨c, .counted⟩ :: after)
      (hshutdown : s.shutdown = false) :
      Stepped s (.link before.length)
        { s with pressure := ⟨s.pressure.counters, (before ++ ⟨c, .queued⟩ :: after).toArray⟩ }
  | retire {c : ℕ} {before after : List Link}
      (hl : s.pressure.links.toList = before ++ ⟨c, .counted⟩ :: after)
      (hshutdown : s.shutdown = true) :
      Stepped s (.link before.length)
        { s with
          pressure := ⟨s.pressure.counters, (before ++ after).toArray⟩
          senders := s.senders - 1 }
  | shutdown : Stepped s .shutdown { s with shutdown := true }
  /-- There is nothing to submit or to hand out, or no link at the place. -/
  | idle (e : Event) (h : ∀ i, e = .link i → s.pressure.links[i]? = none) : Stepped s e s

/-- Every event follows one of the rules. -/
theorem stepped (s : Scene) (e : Event) : Stepped s e (s.step e) := by
  cases e with
  | submit =>
      rw [step]
      split
      · rename_i h
        exact .submit h
      · exact .idle _ nofun
  | handOut =>
      rw [step]
      split
      · rename_i h
        simp only [Bool.and_eq_true, decide_eq_true_eq, Bool.not_eq_true'] at h
        exact .handOut h.1 h.2
      · exact .idle _ nofun
  | shutdown => exact .shutdown
  | link i =>
      rw [step, endsAt]
      cases hl : s.pressure.links[i]? with
      | none =>
          rw [Pressure.step, hl]
          simp only [Option.any_none, Bool.and_false]
          exact .idle _ fun j hj => by cases hj; exact hl
      | some l =>
          obtain ⟨before, after, hrow, rfl⟩ := exists_between hl
          obtain ⟨c, stage⟩ := l
          rw [Pressure.step, hl]
          cases stage with
          | queued =>
              simp only [set_between hrow, Option.any_some, reduceCtorEq, decide_false,
                Bool.and_false]
              exact .yield hrow
          | yielded =>
              simp only [set_between hrow, Option.any_some, reduceCtorEq, decide_false,
                Bool.and_false]
              exact .count hrow
          | counted =>
              cases hshutdown : s.shutdown with
              | false => simpa [set_between hrow, hshutdown] using Stepped.handOn hrow hshutdown
              | true => simpa [erase_between hrow, hshutdown] using Stepped.retire hrow hshutdown

/-! ### The invariant -/

section Stepped

variable {s s' : Scene} {e : Event} {c : ℕ}

/-- How far the counter of a chain gets at least: each of its links that lives counts itself, and so
does the first link of a chain that is still to be submitted. -/
def ceiling (s : Scene) (c : ℕ) : ℕ :=
  s.pressure.counter c + if c < s.submitted then s.pressure.uncounted c else 1

/-- A chain that was submitted and has no link any more. -/
def Retired (s : Scene) (c : ℕ) : Prop :=
  c < s.submitted ∧ s.pressure.linksOf c = 0

/-- What holds of a scene at every moment. -/
structure Sound (s : Scene) : Prop where
  within : s.submitted ≤ s.pressure.chains
  all : s.started = true → s.submitted = s.pressure.chains
  known : ∀ l ∈ s.pressure.links.toList, l.chain < s.submitted
  single : ∀ c, s.pressure.linksOf c ≤ 1
  /-- Every link has one sender, and the generator has one until it is handed out. -/
  senders : s.senders = s.pressure.links.size + if s.started then 0 else 1
  ahead : ∀ c, 1 ≤ s.ceiling c

lemma Sound.opened (units : ℕ) (shutdown : Bool) : Sound (opened units shutdown) :=
  ⟨Nat.zero_le _, nofun, nofun, fun _ => Nat.zero_le _, rfl, fun _ => Nat.le_add_left 1 _⟩

lemma linksOf_submit (p : Pressure) (n c : ℕ) :
    (p.submit n).linksOf c = p.linksOf c + if n = c then 1 else 0 := by
  simp [submit, linksOf, List.countP_singleton]

lemma uncounted_submit (p : Pressure) (n c : ℕ) :
    (p.submit n).uncounted c = p.uncounted c + if n = c then 1 else 0 := by
  simp [submit, uncounted, List.countP_singleton]

lemma uncounted_le (p : Pressure) (c : ℕ) : p.uncounted c ≤ p.linksOf c :=
  List.countP_mono_left fun l _ h => by
    simp only [Bool.and_eq_true] at h
    exact h.1

/-- A chain of which no link is known has none. -/
lemma Sound.linksOf_eq_zero (h : s.Sound) (hc : s.submitted ≤ c) : s.pressure.linksOf c = 0 := by
  refine List.countP_eq_zero.mpr fun l hl => ?_
  have hknown := h.known l hl
  simp only [decide_eq_true_eq]
  omega

/-- The chains stay the same. -/
lemma Stepped.chains (h : Stepped s e s') : s'.pressure.chains = s.pressure.chains := by
  cases h with
  | count hl => exact Array.size_modify
  | _ => rfl

/-- The counter of a chain after one of its links has counted itself. -/
lemma counter_modify {counters : Array ℕ} {d : ℕ} (hd : d < counters.size) (links : Array Link)
    (c : ℕ) :
    counter ⟨counters.modify d (· + 1), links⟩ c =
      counter ⟨counters, links⟩ c + if d = c then 1 else 0 := by
  simp only [counter, Array.getD_eq_getD_getElem?, Array.getElem?_modify]
  by_cases hdc : d = c
  · subst hdc
    simp [hd]
  · simp [hdc]

section Row

variable {p : Pressure} {d : ℕ} {stage : LinkStage} {before after : List Link}

/-- A link that goes on is still one of its chain. -/
lemma linksOf_set (hl : p.links.toList = before ++ ⟨d, stage⟩ :: after) (counters : Array ℕ)
    (stage' : LinkStage) (c : ℕ) :
    linksOf ⟨counters, (before ++ ⟨d, stage'⟩ :: after).toArray⟩ c = p.linksOf c := by
  simp [linksOf, hl, List.countP_cons]

/-- Without the link its chain has one less. -/
lemma linksOf_erase (hl : p.links.toList = before ++ ⟨d, stage⟩ :: after) (counters : Array ℕ)
    (c : ℕ) :
    linksOf ⟨counters, (before ++ after).toArray⟩ c + (if d = c then 1 else 0) = p.linksOf c := by
  simp [linksOf, hl, List.countP_cons, Nat.add_assoc]

lemma uncounted_set (hl : p.links.toList = before ++ ⟨d, stage⟩ :: after) (counters : Array ℕ)
    (stage' : LinkStage) (c : ℕ) :
    uncounted ⟨counters, (before ++ ⟨d, stage'⟩ :: after).toArray⟩ c +
        (if d = c ∧ stage ≠ .counted then 1 else 0) =
      p.uncounted c + if d = c ∧ stage' ≠ .counted then 1 else 0 := by
  simp [uncounted, hl, List.countP_cons]
  omega

lemma uncounted_erase (hl : p.links.toList = before ++ ⟨d, .counted⟩ :: after)
    (counters : Array ℕ) (c : ℕ) :
    uncounted ⟨counters, (before ++ after).toArray⟩ c = p.uncounted c := by
  simp [uncounted, hl]

end Row

/-- A link that goes on is one of a chain that was submitted. -/
lemma Sound.known_between (hs : s.Sound) {d : ℕ} {stage : LinkStage} {before after : List Link}
    (hl : s.pressure.links.toList = before ++ ⟨d, stage⟩ :: after) : d < s.submitted :=
  hs.known ⟨d, stage⟩ (by simp [hl])

/-- A chain gets no further than its ceiling says, and the ceiling is raised only before the
shutdown. -/
lemma Stepped.ceiling (h : Stepped s e s') (hs : s.Sound) (c : ℕ) :
    s'.ceiling c = s.ceiling c ∨ s.shutdown = false ∧ s.ceiling c ≤ s'.ceiling c := by
  cases h with
  | submit h =>
      -- the first link of a chain takes the place of the one that was still to be submitted
      left
      have hnone : s.pressure.uncounted s.submitted = 0 :=
        Nat.le_zero.mp (hs.linksOf_eq_zero (Nat.le_refl _) ▸ uncounted_le _ _)
      have hcounter : (s.pressure.submit s.submitted).counter c = s.pressure.counter c := rfl
      simp only [Scene.ceiling, uncounted_submit, hcounter]
      rcases Nat.lt_trichotomy c s.submitted with hlt | rfl | hgt
      · simp [hlt, hlt.ne', Nat.lt_succ_of_lt hlt]
      · simp [hnone]
      · simp [Nat.not_lt.mpr hgt.le, Nat.not_lt.mpr (Nat.succ_le_of_lt hgt)]
  | @yield d before after hl =>
      left
      have hset := uncounted_set hl s.pressure.counters .yielded c
      simp only [ne_eq, reduceCtorEq, not_false_eq_true, and_true, Nat.add_right_cancel_iff] at hset
      simp only [Scene.ceiling, hset]
      rfl
  | @count d before after hl =>
      -- what the counter gains, the links that have not counted themselves lose
      left
      have hknown := hs.known_between hl
      have hset := uncounted_set hl (s.pressure.counters.modify d (· + 1)) .counted c
      have hcounter := counter_modify (Nat.lt_of_lt_of_le hknown hs.within)
        (before ++ ⟨d, .counted⟩ :: after).toArray c
      have hbefore : counter ⟨s.pressure.counters, (before ++ ⟨d, .counted⟩ :: after).toArray⟩ c =
          s.pressure.counter c := rfl
      simp only [ne_eq, reduceCtorEq, not_false_eq_true, and_true, not_true_eq_false, and_false,
        if_false, Nat.add_zero] at hset
      simp only [Scene.ceiling, hcounter, hbefore]
      by_cases hc : c < s.submitted
      · simp only [if_pos hc]
        omega
      · have hdc : d ≠ c := by omega
        simp only [if_neg hc, if_neg hdc]
  | @handOn d before after hl hshutdown =>
      right
      have hset := uncounted_set hl s.pressure.counters .queued c
      simp only [ne_eq, not_true_eq_false, and_false, if_false, Nat.add_zero] at hset
      refine ⟨hshutdown, ?_⟩
      simp only [Scene.ceiling, hset]
      show s.pressure.counter c + _ ≤ s.pressure.counter c + _
      split <;> omega
  | @retire d before after hl hshutdown =>
      left
      simp only [Scene.ceiling, uncounted_erase hl]
      rfl
  | handOut => exact .inl rfl
  | shutdown => exact .inl rfl
  | idle => exact .inl rfl

/-- A link that goes on takes the place of another one of the same chain. -/
lemma Sound.set (hs : s.Sound) {d : ℕ} {stage stage' : LinkStage} {before after : List Link}
    (hl : s.pressure.links.toList = before ++ ⟨d, stage⟩ :: after) {counters : Array ℕ}
    (hchains : counters.size = s.pressure.chains)
    (hahead : ∀ c, 1 ≤ ({ s with
      pressure := ⟨counters, (before ++ ⟨d, stage'⟩ :: after).toArray⟩ } : Scene).ceiling c) :
    Sound { s with pressure := ⟨counters, (before ++ ⟨d, stage'⟩ :: after).toArray⟩ } := by
  have hknown := hs.known
  have hsenders := hs.senders
  rw [← Array.length_toList] at hsenders
  simp only [hl, List.mem_append, List.mem_cons] at hknown
  refine ⟨hs.within.trans_eq hchains.symm, fun h => (hs.all h).trans hchains.symm, fun l hmem => ?_,
    fun c => (linksOf_set hl counters stage' c).trans_le (hs.single c), ?_, hahead⟩
  · simp only [List.mem_append, List.mem_cons] at hmem
    rcases hmem with hmem | rfl | hmem
    · exact hknown l (.inl hmem)
    · exact hs.known_between hl
    · exact hknown l (.inr (.inr hmem))
  · simpa [hl] using hsenders

/-- **Every event keeps the invariant.** -/
theorem Sound.stepped (hs : s.Sound) (h : Stepped s e s') : s'.Sound := by
  have hahead (c : ℕ) : 1 ≤ s'.ceiling c := by
    have hbefore := hs.ahead c
    rcases h.ceiling hs c with heq | ⟨-, hle⟩ <;> omega
  have hsenders := hs.senders
  cases h with
  | submit h =>
      refine ⟨h, fun hstarted => absurd (hs.all hstarted) h.ne, fun l hl => ?_, fun c => ?_, ?_,
        hahead⟩
      · simp only [submit, Array.toList_push, List.mem_append, List.mem_singleton] at hl
        rcases hl with hl | rfl
        · exact Nat.lt_succ_of_lt (hs.known l hl)
        · exact Nat.lt_succ_self _
      · rw [linksOf_submit]
        have hsingle := hs.single c
        split
        · rename_i hc
          rw [← hc, hs.linksOf_eq_zero (Nat.le_refl _)]
        · exact hsingle
      · simp only [submit, Array.size_push, hsenders]
        omega
  | handOut h hstarted =>
      refine ⟨hs.within, fun _ => h, hs.known, hs.single, ?_, hahead⟩
      simp [hsenders, hstarted]
  | yield hl => exact hs.set hl rfl hahead
  | count hl => exact hs.set hl Array.size_modify hahead
  | handOn hl hshutdown => exact hs.set hl rfl hahead
  | @retire d before after hl hshutdown =>
      refine ⟨hs.within, hs.all, fun l hmem => hs.known l ?_, fun c => ?_, ?_, hahead⟩
      · simp only [List.mem_append] at hmem
        rw [hl, List.mem_append, List.mem_cons]
        exact hmem.imp_right .inr
      · have herase := linksOf_erase hl s.pressure.counters c
        have hsingle := hs.single c
        show linksOf ⟨s.pressure.counters, (before ++ after).toArray⟩ c ≤ 1
        omega
      · rw [← Array.length_toList, hl, List.length_append, List.length_cons] at hsenders
        show s.senders - 1 = (before ++ after).toArray.size + if s.started then 0 else 1
        rw [List.size_toArray, List.length_append]
        omega
  | shutdown => exact ⟨hs.within, hs.all, hs.known, hs.single, hsenders, hahead⟩
  | idle => exact hs

/-- At its turn a link that has counted itself observes the shutdown signal, if it is raised. -/
lemma observes_between {d : ℕ} {stage : LinkStage} {before after : List Link}
    (hl : s.pressure.links.toList = before ++ ⟨d, stage⟩ :: after) :
    s.Observes (.link before.length) c ↔ s.shutdown = true ∧ d = c ∧ stage = .counted := by
  refine and_congr_right fun _ => ⟨?_, ?_⟩
  · rintro ⟨i, hi, hlink⟩
    cases hi
    rw [getElem?_between hl] at hlink
    cases hlink
    exact ⟨rfl, rfl⟩
  · rintro ⟨rfl, rfl⟩
    exact ⟨_, rfl, getElem?_between hl⟩

/-- A chain retires when its link observes the shutdown signal, and stays so. -/
lemma Stepped.retired_iff (h : Stepped s e s') (hs : s.Sound) :
    s'.Retired c ↔ s.Retired c ∨ s.Observes e c := by
  have hother (hne : ∀ i, e = .link i → s.pressure.links[i]? ≠ some ⟨c, .counted⟩) :
      ¬ s.Observes e c := by
    rintro ⟨-, i, he, hi⟩
    exact hne i he hi
  -- a link that yields or counts, or is handed on, retires no chain and observes nothing
  have hset {d : ℕ} {stage stage' : LinkStage} {before after : List Link} {counters : Array ℕ}
      (hl : s.pressure.links.toList = before ++ ⟨d, stage⟩ :: after)
      (hne : stage ≠ .counted ∨ s.shutdown = false)
      (hs' : s' = { s with pressure := ⟨counters, (before ++ ⟨d, stage'⟩ :: after).toArray⟩ })
      (he : e = .link before.length) : s'.Retired c ↔ s.Retired c ∨ s.Observes e c := by
    have hnot : ¬ s.Observes e c := by
      rw [he, observes_between hl]
      rintro ⟨hshutdown, -, hcounted⟩
      rcases hne with hne | hne
      · exact hne hcounted
      · rw [hshutdown] at hne
        cases hne
    rw [or_iff_left hnot, hs', Retired, Retired, linksOf_set hl]
  cases h with
  | submit h =>
      rw [or_iff_left (hother nofun), Retired, Retired, linksOf_submit]
      dsimp only
      by_cases hc : s.submitted = c
      · simp [hc]
      · rw [if_neg hc, Nat.add_zero]
        refine and_congr_left fun _ => ?_
        omega
  | handOut => exact (or_iff_left (hother nofun)).symm
  | yield hl => exact hset hl (.inl nofun) rfl rfl
  | count hl => exact hset hl (.inl nofun) rfl rfl
  | handOn hl hshutdown => exact hset hl (.inr hshutdown) rfl rfl
  | @retire d before after hl hshutdown =>
      have herase := linksOf_erase hl s.pressure.counters c
      have hsingle := hs.single c
      have hknown := hs.known_between hl
      have hobserves : s.Observes (.link before.length) c ↔ d = c := by
        rw [observes_between hl, eq_self, and_true, and_iff_right hshutdown]
      rw [hobserves, Retired, Retired]
      dsimp only
      by_cases hdc : d = c
      · rw [if_pos hdc] at herase
        refine iff_of_true ⟨hdc ▸ hknown, by omega⟩ (.inr hdc)
      · rw [if_neg hdc, Nat.add_zero] at herase
        rw [herase, or_iff_left hdc]
  | shutdown => exact (or_iff_left (hother nofun)).symm
  | idle _ h =>
      refine (or_iff_left (hother fun i he => ?_)).symm
      rw [h i he]
      nofun

/-- The shutdown signal stays raised. -/
lemma Stepped.shutdown_eq (h : Stepped s e s') (hs : s.shutdown = true) : s'.shutdown = true := by
  cases h with
  | shutdown => rfl
  | _ => exact hs

/-! ### Joining the chains -/

/-- Without a link there is nothing to go on: all chains of a generator that was handed out were
submitted. -/
lemma Stepped.of_retired (h : Stepped s e s') (hs : s.Sound) (hstarted : s.started = true)
    (hlinks : s.pressure.links = #[]) :
    s'.pressure = s.pressure ∧ s'.started = true ∧ s'.senders = s.senders := by
  have hempty {l : Link} {before after : List Link}
      (hl : s.pressure.links.toList = before ++ l :: after) : False := by
    rw [hlinks] at hl
    simp at hl
  cases h with
  | submit h => exact absurd (hs.all hstarted) h.ne
  | handOut _ hnot =>
      rw [hstarted] at hnot
      cases hnot
  | yield hl => exact (hempty hl).elim
  | count hl => exact (hempty hl).elim
  | handOn hl => exact (hempty hl).elim
  | retire hl => exact (hempty hl).elim
  | shutdown => exact ⟨rfl, hstarted, rfl⟩
  | idle => exact ⟨rfl, hstarted, rfl⟩

/-- No sender is left exactly when no link is. -/
lemma Sound.senders_eq_zero (hs : s.Sound) (hstarted : s.started = true) :
    s.senders = 0 ↔ s.pressure.links = #[] := by
  rw [hs.senders, if_pos hstarted, Nat.add_zero, Array.size_eq_zero_iff]

/-- The wait for the chains is over once the generator was handed out and no link is left. -/
lemma Sound.join?_eq (hs : s.Sound) (hstarted : s.started = true) :
    s.join? = if s.pressure.isOver then some s.pressure.total else none := by
  simp [join?, hstarted, hs.senders_eq_zero hstarted, isOver]

/-- No link is left exactly when all chains have retired. -/
lemma Sound.links_eq_nil (hs : s.Sound) (hstarted : s.started = true) :
    s.pressure.links = #[] ↔ ∀ c < s.pressure.chains, s.Retired c := by
  constructor
  · intro hlinks c hc
    exact ⟨(hs.all hstarted).symm ▸ hc, by simp [linksOf, hlinks]⟩
  · intro hretired
    refine Array.toList_eq_nil_iff.mp (List.eq_nil_iff_forall_not_mem.mpr fun l hl => ?_)
    have hc := Nat.lt_of_lt_of_le (hs.known l hl) hs.within
    have hnone := List.countP_eq_zero.mp (hretired l.chain hc).2 l hl
    simp at hnone

/-- The number of links that were counted is the sum of the counters. -/
lemma total_eq (p : Pressure) : p.total = p.counters.toList.sum := by
  rw [total, ← Array.foldl_toList, List.sum_eq_foldl]

lemma sum_modify_le (counters : Array ℕ) (d : ℕ) :
    (counters.modify d (· + 1)).toList.sum ≤ counters.toList.sum + 1 := by
  rw [Array.toList_modify]
  induction counters.toList generalizing d with
  | nil => simp
  | cons n ns ih =>
      cases d with
      | zero =>
          simp only [List.modify_zero_cons, List.sum_cons]
          omega
      | succ d =>
          have hrest := ih d
          simp only [List.modify_succ_cons, List.sum_cons]
          omega

/-- An event counts one link at most. -/
lemma Stepped.total_le (h : Stepped s e s') : s'.pressure.total ≤ s.pressure.total + 1 := by
  rw [total_eq, total_eq]
  cases h with
  | count hl => exact sum_modify_le _ _
  | _ => exact Nat.le_add_right _ _

end Stepped

/-! ### Runs -/

section Runs

variable {s : Scene} {c : ℕ}

/-- What holds at first and is kept by every rule holds after every run. -/
lemma run_induction {P : Scene → Prop}
    (hstep : ∀ {s s' : Scene} {e : Event}, P s → Stepped s e s' → P s') {s : Scene} (h : P s)
    (events : List Event) : P (s.run events) := by
  induction events generalizing s with
  | nil => exact h
  | cons e events ih => exact ih (hstep h (stepped s e))

lemma Sound.run (hs : s.Sound) (events : List Event) : (s.run events).Sound :=
  run_induction (fun h hstep => h.stepped hstep) hs events

/-- The chains that have retired are those of which a link has observed the shutdown signal. -/
lemma retired_run (hs : s.Sound) (events : List Event) :
    (s.run events).Retired c ↔ s.Retired c ∨ s.Observed events c := by
  induction events generalizing s with
  | nil => simp [Observed]
  | cons e events ih =>
      have hstepped := stepped s e
      rw [run_cons, ih (hs.stepped hstepped), hstepped.retired_iff hs, observed_cons, or_assoc]

/-- After the shutdown a counter stays below the ceiling of its chain. -/
lemma counter_run_le (hs : s.Sound) (hshutdown : s.shutdown = true) (events : List Event) (c : ℕ) :
    (s.run events).pressure.counter c ≤ s.pressure.counter c + 1 := by
  -- after the shutdown the ceiling stays, and it is one above the counter at most
  have hceiling : (s.run events).ceiling c = s.ceiling c := by
    have hend : (s.run events).Sound ∧ (s.run events).shutdown = true ∧
        (s.run events).ceiling c = s.ceiling c := by
      refine run_induction (P := fun q => q.Sound ∧ q.shutdown = true ∧ q.ceiling c = s.ceiling c)
        (fun {q q' e} h hstep => ⟨h.1.stepped hstep, hstep.shutdown_eq h.2.1, ?_⟩)
        ⟨hs, hshutdown, rfl⟩ events
      rcases hstep.ceiling h.1 c with heq | ⟨hnot, -⟩
      · exact heq.trans h.2.2
      · rw [h.2.1] at hnot
        cases hnot
    exact hend.2.2
  have huncounted := (uncounted_le s.pressure c).trans (hs.single c)
  calc (s.run events).pressure.counter c
      ≤ (s.run events).ceiling c := Nat.le_add_right _ _
    _ = s.pressure.counter c + if c < s.submitted then s.pressure.uncounted c else 1 := hceiling
    _ ≤ s.pressure.counter c + 1 := by split <;> omega

lemma join?_eq_some_iff {n : ℕ} :
    s.join? = some n ↔ s.started = true ∧ s.senders = 0 ∧ s.pressure.total = n := by
  simp [join?, and_assoc]

/-- What the chains were joined with stands for good. -/
lemma join?_run (hs : s.Sound) {n : ℕ} (hn : s.join? = some n) (events : List Event) :
    (s.run events).pressure = s.pressure ∧ (s.run events).join? = some n := by
  obtain ⟨hstarted, hsenders, htotal⟩ := join?_eq_some_iff.mp hn
  have hend : (s.run events).Sound ∧ (s.run events).pressure = s.pressure ∧
      (s.run events).started = true ∧ (s.run events).senders = 0 := by
    refine run_induction
      (P := fun q => q.Sound ∧ q.pressure = s.pressure ∧ q.started = true ∧ q.senders = 0)
      (fun {q q' e} h hstep => ?_) ⟨hs, rfl, hstarted, hsenders⟩ events
    obtain ⟨hq, hpressure, hstarted, hsenders⟩ := h
    obtain ⟨hpressure', hstarted', hsenders'⟩ :=
      hstep.of_retired hq hstarted ((hq.senders_eq_zero hstarted).mp hsenders)
    exact ⟨hq.stepped hstep, hpressure'.trans hpressure, hstarted', hsenders'.trans hsenders⟩
  obtain ⟨-, hpressure, hstarted, hsenders⟩ := hend
  exact ⟨hpressure, join?_eq_some_iff.mpr ⟨hstarted, hsenders, hpressure ▸ htotal⟩⟩

/-- There are no more links than events. -/
lemma total_run_le (s : Scene) (events : List Event) :
    (s.run events).pressure.total ≤ s.pressure.total + events.length := by
  induction events generalizing s with
  | nil => exact Nat.le_refl _
  | cons e events ih =>
      have hstep := (stepped s e).total_le
      have hrest := ih (s.step e)
      rw [run_cons, List.length_cons]
      omega

/-- What is left to be done once the shutdown signal is raised. -/
def left (s : Scene) : ℕ :=
  4 * (s.pressure.chains - s.submitted) + s.pressure.movesLeft + if s.started then 0 else 1

/-- Once the shutdown signal is raised the chains can be brought to their end. -/
lemma exists_join (hs : s.Sound) (hshutdown : s.shutdown = true) :
    ∃ events n, (s.run events).join? = some n := by
  -- what is left grows less with every event
  induction hn : s.left using Nat.strongRecOn generalizing s with
  | ind n ih =>
      subst hn
      have hnext (e : Event) (hless : (s.step e).left < s.left) :
          ∃ events n, (s.run events).join? = some n := by
        have hstepped := stepped s e
        obtain ⟨events, n, hn⟩ :=
          ih _ hless (hs.stepped hstepped) (hstepped.shutdown_eq hshutdown) rfl
        exact ⟨e :: events, n, hn⟩
      by_cases hall : s.submitted < s.pressure.chains
      · refine hnext .submit ?_
        have hmoves : (s.pressure.submit s.submitted).movesLeft = s.pressure.movesLeft + 3 := by
          simp [submit, movesLeft]
        have hchains : (s.pressure.submit s.submitted).chains = s.pressure.chains := rfl
        simp only [step, if_pos hall, left, hmoves, hchains]
        omega
      have hsubmitted : s.submitted = s.pressure.chains := by
        have hwithin := hs.within
        omega
      cases hstarted : s.started with
      | false =>
          refine hnext .handOut ?_
          simp [step, left, hsubmitted, hstarted]
      | true =>
          cases hover : s.pressure.isOver with
          | true => exact ⟨[], s.pressure.total, by rw [run_nil, hs.join?_eq hstarted, if_pos hover]⟩
          | false =>
              refine hnext (.link 0) ?_
              have hmoves := movesLeft_step hover
              have hchains := (stepped s (.link 0)).chains
              rw [← hshutdown] at hmoves
              rw [left, left, hchains]
              exact Nat.add_lt_add_right (Nat.add_lt_add_left hmoves _) _

/-- A chain that has retired has counted a link. -/
lemma Retired.counter_pos (hs : s.Sound) (h : s.Retired c) : 1 ≤ s.pressure.counter c := by
  have hahead := hs.ahead c
  have huncounted := uncounted_le s.pressure c
  rw [ceiling, if_pos h.1] at hahead
  have hnone := h.2
  omega

/-- A chain that was submitted has a link as long as it has not retired. -/
lemma linksOf_eq_one_iff (hs : s.Sound) (hc : c < s.submitted) :
    s.pressure.linksOf c = 1 ↔ ¬ s.Retired c := by
  have hsingle := hs.single c
  rw [Retired, not_and]
  constructor
  · intro hone _
    omega
  · intro hlinks
    have hne := hlinks hc
    omega

end Runs

/-! ### A whole generator -/

/-- Where nothing else happens meanwhile, all chains are submitted before their first links go
on. -/
lemma run_submit (units : ℕ) (shutdown : Bool) :
    (opened units shutdown).run (List.replicate units .submit ++ [.handOut]) =
      ⟨Pressure.start units, shutdown, units, true, units⟩ := by
  have hsubmits {k : ℕ} (hk : k ≤ units) :
      (opened units shutdown).run (List.replicate k .submit) =
        ⟨⟨Array.replicate units 0, (Array.range k).map fun c => ⟨c, .queued⟩⟩, shutdown, k, false,
          k + 1⟩ := by
    induction k with
    | zero => simp [opened]
    | succ k ih =>
        rw [List.replicate_succ', run_append, ih (by omega)]
        simp [step, submit, Pressure.chains, Nat.lt_of_succ_le hk, Array.range_succ]
  rw [run_append, hsubmits (Nat.le_refl _)]
  simp [step, Pressure.chains, Pressure.start]

lemma sound_start (units : ℕ) (shutdown : Bool) :
    Sound ⟨Pressure.start units, shutdown, units, true, units⟩ := by
  have hsound := (Sound.opened units shutdown).run (List.replicate units .submit ++ [.handOut])
  rwa [run_submit] at hsound

/-- **Chains neither multiply nor vanish.**

Whenever the shutdown signal is raised and in whatever order the links go on, a chain has never more
than one link. From its first link on it has exactly one until a link of it observes the signal, and
none after that; it has counted one link at least by then. Once the signal is raised each counter
grows by one at most. The chains are joined exactly if all of them have retired, with the sum of
their counters, and after that nothing changes any more; without chains there is nothing to wait
for. Once the signal is raised they can be brought so far. There are no more links than events, so
that `2 ^ 64` events have to go by before a counter of 64 bits runs over. -/
theorem chains_retire (units : ℕ) (shutdown : Bool) (events : List Event) :
    let start := opened units shutdown
    let s := start.run events
    s.pressure.chains = units ∧
    (∀ c, s.pressure.linksOf c ≤ 1) ∧
    (∀ c < s.submitted, (s.pressure.linksOf c = 1 ↔ ¬ start.Observed events c) ∧
      (start.Observed events c → 1 ≤ s.pressure.counter c)) ∧
    (s.shutdown = true → ∀ more c,
      (s.run more).pressure.counter c ≤ s.pressure.counter c + 1) ∧
    (∀ n, s.join? = some n ↔ s.started = true ∧ (∀ c < units, start.Observed events c) ∧
      s.pressure.counters.toList.sum = n) ∧
    (∀ n, s.join? = some n → ∀ more,
      (s.run more).pressure = s.pressure ∧ (s.run more).join? = some n) ∧
    (units = 0 → s.started = true → s.join? = some 0) ∧
    (s.shutdown = true → ∃ more n, (s.run more).join? = some n) ∧
    s.pressure.counters.toList.sum ≤ events.length := by
  intro start s
  have hsound : s.Sound := (Sound.opened units shutdown).run events
  have hchains : s.pressure.chains = units :=
    run_induction (P := fun q => q.pressure.chains = units) (fun h hstep => hstep.chains.trans h)
      (s := start) Array.size_replicate events
  -- no chain is retired before it is submitted
  have hretired (c : ℕ) : s.Retired c ↔ start.Observed events c := by
    rw [retired_run (.opened units shutdown), or_iff_right]
    exact fun h => Nat.not_lt_zero c h.1
  have hjoin (n : ℕ) : s.join? = some n ↔ s.started = true ∧
      (∀ c < units, start.Observed events c) ∧ s.pressure.counters.toList.sum = n := by
    rw [join?_eq_some_iff]
    refine and_congr_right fun hstarted => ?_
    rw [hsound.senders_eq_zero hstarted, hsound.links_eq_nil hstarted, hchains, total_eq]
    simp only [hretired]
  refine ⟨hchains, hsound.single, fun c hc => ⟨?_, fun h => ?_⟩,
    fun hshutdown more c => counter_run_le hsound hshutdown more c, hjoin,
    fun n hn more => join?_run hsound hn more, ?_, fun hshutdown => exists_join hsound hshutdown,
    ?_⟩
  · rw [linksOf_eq_one_iff hsound hc, hretired]
  · exact ((hretired c).mpr h).counter_pos hsound
  · rintro hunits hstarted
    refine (hjoin 0).mpr ⟨hstarted, fun c hc => absurd hc (by omega), ?_⟩
    rw [Array.size_eq_zero_iff.mp (hchains.trans hunits)]
    rfl
  · have htotal := total_run_le start events
    have hzero : start.pressure.total = 0 := by simp [total_eq, start, opened]
    rwa [hzero, Nat.zero_add, total_eq] at htotal

/-- Two chains under a shutdown that was asked for before the first of them, which retires before
the second one is submitted. -/
theorem chains_retire_at_early_shutdown :
    let start := opened 2 true
    let events : List Event :=
      [.submit, .link 0, .link 0, .link 0, .submit, .handOut, .link 0, .link 0, .link 0]
    let s := start.run events
    s.join? = some 2 ∧ (∀ c < 2, start.Observed events c ∧ 1 ≤ s.pressure.counter c) ∧
      (∀ more c, (s.run more).pressure.counter c ≤ s.pressure.counter c + 1) ∧
      ∀ more, (s.run more).pressure = s.pressure := by
  intro start events s
  obtain ⟨-, -, hchain, hcounter, hjoin, hstay, -⟩ := chains_retire 2 true events
  have hend : s.join? = some 2 := by decide +kernel
  have hsubmitted : s.submitted = 2 := by decide +kernel
  have hobserved := ((hjoin 2).mp hend).2.1
  refine ⟨hend, fun c hc => ⟨hobserved c hc, (hchain c (hsubmitted.symm ▸ hc)).2 (hobserved c hc)⟩,
    hcounter (by decide +kernel), fun more => (hstay 2 hend more).1⟩

/-! ### The running generator -/

/-- Links that go on change the chains only. -/
lemma run_links (s : Scene) (places : List ℕ) : ∃ senders, s.run (places.map .link) =
    { s with pressure := s.pressure.turns s.shutdown places, senders } := by
  induction places generalizing s with
  | nil => exact ⟨s.senders, rfl⟩
  | cons i places ih => exact ih (s.step (.link i))

/-- Before the shutdown signal nothing observes it. -/
lemma not_observed_links {s : Scene} (h : s.shutdown = false) (places : List ℕ) (c : ℕ) :
    ¬ s.Observed (places.map .link) c := by
  rintro ⟨before, e, after, hsplit, hobserves, -⟩
  obtain ⟨earlier, later, rfl, rfl, -⟩ := List.map_eq_append_iff.mp hsplit
  obtain ⟨senders, hrun⟩ := s.run_links earlier
  rw [hrun, h] at hobserves
  cases hobserves

/-- What a link observes in the scene is said by the place at which it stood. -/
lemma observed_links {s : Scene} (h : s.shutdown = true) (places : List ℕ) (c : ℕ) :
    s.Observed (places.map .link) c ↔ ∃ earlier i later, places = earlier ++ i :: later ∧
      (s.pressure.turns true earlier).links[i]? = some ⟨c, .counted⟩ := by
  constructor
  · rintro ⟨before, e, after, hsplit, -, i, rfl, hlink⟩
    obtain ⟨earlier, rest, rfl, rfl, hrest⟩ := List.map_eq_append_iff.mp hsplit
    obtain ⟨j, later, rfl, hj, -⟩ := List.map_eq_cons_iff.mp hrest
    cases hj
    obtain ⟨senders, hrun⟩ := s.run_links earlier
    rw [hrun, h] at hlink
    exact ⟨earlier, i, later, rfl, hlink⟩
  · rintro ⟨earlier, i, later, rfl, hlink⟩
    obtain ⟨senders, hrun⟩ := s.run_links earlier
    refine ⟨earlier.map .link, .link i, later.map .link, by simp, ?_⟩
    rw [hrun, h]
    exact ⟨rfl, i, rfl, hlink⟩

end Scene

lemma linksOf_start_ne_zero {units c : ℕ} (hc : c < units) : (start units).linksOf c ≠ 0 := by
  intro hnone
  have hfirst : (⟨c, .queued⟩ : Link) ∈ (start units).links.toList := by
    simpa [start] using hc
  simpa using List.countP_eq_zero.mp hnone _ hfirst

lemma turns_of_isOver {p : Pressure} (h : p.isOver = true) (shutdown : Bool) (places : List ℕ) :
    p.turns shutdown places = p := by
  have hlinks : p.links = #[] := Array.isEmpty_iff.mp h
  induction places with
  | nil => rfl
  | cons i places ih =>
      have hstep : (p.step shutdown i).1 = p := by simp [step, hlinks]
      rw [turns, List.foldl_cons, hstep]
      exact ih

/-- Under the shutdown signal all links come to their end. -/
lemma exists_isOver (p : Pressure) : ∃ places, (p.turns true places).isOver = true := by
  induction hn : p.movesLeft using Nat.strongRecOn generalizing p with
  | ind n ih =>
      subst hn
      cases hover : p.isOver with
      | true => exact ⟨[], hover⟩
      | false =>
          obtain ⟨places, hplaces⟩ := ih _ (movesLeft_step hover) _ rfl
          exact ⟨0 :: places, hplaces⟩

/-- The chains of a generator, whose links go on at any places before the shutdown signal and at any
places after it. Before it every chain has one link; after it a chain has one link until the link
that has counted itself has its turn, and none from then on. Every counter grows by one at most, and
is not zero where the chain has retired. The chains are over exactly if all of them have retired;
then they stay as they are, and they always get there. -/
theorem start_turns (units : ℕ) (before after : List ℕ) :
    let p := (start units).turns false before
    let q := p.turns true after
    (∀ c < units, p.linksOf c = 1) ∧
    (∀ c < units, q.linksOf c = 1 ∨ q.linksOf c = 0 ∧ 1 ≤ q.counter c) ∧
    (∀ c < units, q.linksOf c = 0 ↔ ∃ earlier i later, after = earlier ++ i :: later ∧
      (p.turns true earlier).links[i]? = some ⟨c, .counted⟩) ∧
    (∀ c, q.counter c ≤ p.counter c + 1) ∧
    (q.isOver = true ↔ ∀ c < units, q.linksOf c = 0) ∧
    (q.isOver = true → ∀ more, q.turns true more = q) ∧
    ∃ more, (q.turns true more).isOver = true := by
  intro p q
  -- the scene with all chains submitted, at the signal, and after the turns that follow it
  let s₀ : Scene := ⟨start units, false, units, true, units⟩
  have hs₀ : s₀.Sound := Scene.sound_start units false
  obtain ⟨m, hm⟩ := s₀.run_links before
  let s₁ : Scene := ⟨p, true, units, true, m⟩
  have hs₁ : s₁.Sound := by
    have hsound := (hs₀.run (before.map .link)).stepped .shutdown
    rwa [hm] at hsound
  have hnot₁ (c : ℕ) (hc : c < units) : ¬ s₁.Retired c := by
    have hretired := Scene.retired_run (c := c) hs₀ (before.map .link)
    rw [hm] at hretired
    exact fun h => (hretired.mp h).elim (fun h => linksOf_start_ne_zero hc h.2)
      (Scene.not_observed_links rfl before c)
  obtain ⟨n, hn⟩ := s₁.run_links after
  let s₂ : Scene := ⟨q, true, units, true, n⟩
  have hs₂ : s₂.Sound := by
    have hsound := hs₁.run (after.map .link)
    rwa [hn] at hsound
  have hretired (c : ℕ) (hc : c < units) : s₂.Retired c ↔ s₁.Observed (after.map .link) c := by
    have hretired := Scene.retired_run (c := c) hs₁ (after.map .link)
    rw [hn, or_iff_right (hnot₁ c hc)] at hretired
    exact hretired
  have hchains : s₂.pressure.chains = units := by
    rw [← hs₂.all rfl]
  refine ⟨fun c hc => ?_, fun c hc => ?_, fun c hc => ?_, fun c => ?_, ?_,
    fun hover more => turns_of_isOver hover true more, exists_isOver q⟩
  · exact (Scene.linksOf_eq_one_iff hs₁ hc).mpr (hnot₁ c hc)
  · by_cases h : s₂.Retired c
    · exact .inr ⟨h.2, h.counter_pos hs₂⟩
    · exact .inl ((Scene.linksOf_eq_one_iff hs₂ hc).mpr h)
  · rw [← Scene.observed_links (s := s₁) rfl, ← hretired c hc]
    exact (and_iff_right hc).symm
  · have hle := Scene.counter_run_le hs₁ rfl (after.map .link) c
    rwa [hn] at hle
  · have hlinks := hs₂.links_eq_nil rfl
    rw [hchains] at hlinks
    rw [isOver, Array.isEmpty_iff]
    exact hlinks.trans (forall₂_congr fun c hc => and_iff_right hc)

end Pressure

end StoreSoak
