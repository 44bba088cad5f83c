import Mathlib.Tactic
import StoreSoak.CommandLine.Parser
import StoreSoak.Measure.Tally
import StoreSoak.Proofs.Text.Numeral

/-!
The numbers of a command line.

Whatever a command line says, the numbers it gives to a run are of 64 bits; where nothing is said
the defaults are.

* `Choice.InRange` is the range of one choice, `Arguments.InRange` that of all of them.
* `Choice.read_inRange`: a value that is read is in range.
* `parse_inRange`: so are all numbers of a command line that is carried out.
-/

namespace StoreSoak

namespace Text

/-- What is read as a number is of 64 bits. -/
lemma natural?_lt {s : List Char} {n : ℕ} (h : natural? s = some n) : n < Totals.counterLimit := by
  rw [natural?.eq_def] at h
  split at h
  · obtain ⟨m, -, hm⟩ := Option.bind_eq_some_iff.mp h
    exact lt_of_below hm
  · obtain ⟨m, -, hm⟩ := Option.bind_eq_some_iff.mp h
    exact lt_of_below hm

end Text

namespace CommandLine

/-- A number that is chosen is of 64 bits. -/
def Choice.InRange : Choice → Prop
  | .syncTimeout n | .workers n | .iterations n | .throttleInterval n | .throttlePause n
  | .pressureUnits n | .duration n | .workerThreads n => n < Totals.counterLimit
  | _ => True

/-- All numbers of a command line are of 64 bits. -/
structure Arguments.InRange (a : Arguments) : Prop where
  syncTimeout : a.syncTimeout < Totals.counterLimit
  workers : a.workers < Totals.counterLimit
  iterations : a.iterations < Totals.counterLimit
  throttleInterval : a.throttleInterval < Totals.counterLimit
  throttlePause : a.throttlePause < Totals.counterLimit
  pressureUnits : ∀ n ∈ a.pressureUnits, n < Totals.counterLimit
  duration : ∀ n ∈ a.duration, n < Totals.counterLimit
  workerThreads : ∀ n ∈ a.workerThreads, n < Totals.counterLimit

/-- The defaults are in range. -/
lemma Arguments.InRange.default : ({} : Arguments).InRange := by
  constructor <;> decide

/-- A choice that is in range keeps the others so. -/
lemma Arguments.InRange.choose {a : Arguments} (h : a.InRange) {c : Choice} (hc : c.InRange) :
    (a.choose c).InRange := by
  cases c with
  | syncTimeout n => exact { h with syncTimeout := hc }
  | workers n => exact { h with workers := hc }
  | iterations n => exact { h with iterations := hc }
  | throttleInterval n => exact { h with throttleInterval := hc }
  | throttlePause n => exact { h with throttlePause := hc }
  | pressureUnits n =>
      exact { h with pressureUnits := fun m hm => Option.some.inj hm ▸ hc }
  | duration n => exact { h with duration := fun m hm => Option.some.inj hm ▸ hc }
  | workerThreads n =>
      exact { h with workerThreads := fun m hm => Option.some.inj hm ▸ hc }
  | _ => exact { h with }

namespace Choice

lemma natural_lt {s : String} {n : ℕ} (h : natural s = .ok n) : n < Totals.counterLimit := by
  rw [natural] at h
  split at h
  · rename_i m hm
    cases h
    exact Text.natural?_lt hm
  · cases h

/-- A choice of a number that was read. -/
lemma inRange_of_natural {s : String} {f : ℕ → Choice} {c : Choice}
    (h : (natural s).map f = .ok c) (hf : ∀ n, n < Totals.counterLimit → (f n).InRange) :
    c.InRange := by
  cases hn : natural s with
  | error x =>
      rw [hn] at h
      cases h
  | ok n =>
      rw [hn] at h
      cases h
      exact hf n (natural_lt hn)

/-- A choice that has no number to be in range. -/
lemma inRange_of_map {α : Type} {x : Except ValueFault α} {f : α → Choice} {c : Choice}
    (h : x.map f = .ok c) (hf : ∀ a, (f a).InRange) : c.InRange := by
  cases x with
  | error x => cases h
  | ok a =>
      cases h
      exact hf a

/-- **A value that is read is in range.** -/
lemma read_inRange {n : Name} {s : String} {c : Choice} (h : read n s = .ok c) : c.InRange := by
  cases n with
  | syncTimeout => exact inRange_of_natural h fun _ hn => hn
  | workers => exact inRange_of_natural h fun _ hn => hn
  | iterations => exact inRange_of_natural h fun _ hn => hn
  | throttleInterval => exact inRange_of_natural h fun _ hn => hn
  | throttlePause => exact inRange_of_natural h fun _ hn => hn
  | pressureUnits => exact inRange_of_natural h fun _ hn => hn
  | duration => exact inRange_of_natural h fun _ hn => hn
  | workerThreads => exact inRange_of_natural h fun _ hn => hn
  | address | noPressure | strictGuard | noWait =>
      cases h
      trivial
  | _ => exact inRange_of_map h fun _ => trivial

end Choice

namespace Progress

variable {p p' : Progress}

lemma take_inRange {n : Name} {value : String} (h : p.arguments.InRange)
    (hp : p.take n value = .ok p') : p'.arguments.InRange := by
  rw [take] at hp
  split at hp
  · cases hp
  · split at hp
    · cases hp
    · rename_i c hc
      cases hp
      exact h.choose (Choice.read_inRange hc)

lemma resolve_inRange (h : p.arguments.InRange) (hp : p.resolve = .ok p') :
    p'.arguments.InRange := by
  rw [resolve.eq_def] at hp
  split at hp
  · cases hp
    exact h
  · cases hp
  · exact take_inRange (p := { p with pending := none }) h hp

lemma long_inRange {name : String} {attached : Option String} (h : p.arguments.InRange)
    (hp : p.long name attached = .ok p') : p'.arguments.InRange := by
  rw [long] at hp
  split at hp
  · split at hp
    · cases hp
    · split at hp <;> cases hp
  · split at hp
    · cases hp
    · split at hp
      · cases hp
      · split at hp
        · cases hp
        · rename_i q hq
          -- a value that was still missing is settled before the new name is taken
          have hresolved := resolve_inRange h hq
          split at hp
          · exact take_inRange hresolved hp
          · split at hp
            · exact take_inRange hresolved hp
            · cases hp
              exact hresolved

/-- One letter is never read any further. -/
lemma short_ne_ok (p : Progress) (letter : Char) : p.short letter ≠ .ok p' := by
  rw [short]
  split
  · split <;> exact nofun
  · exact nofun

lemma plain_inRange {word : String} (h : p.arguments.InRange) (hp : p.plain word = .ok p') :
    p'.arguments.InRange := by
  rw [plain.eq_def] at hp
  split at hp
  · cases hp
    exact h
  · cases hp

/-- Every word keeps the numbers in range. -/
lemma step_inRange {word : String} (h : p.arguments.InRange) (hp : p.step word = .ok p') :
    p'.arguments.InRange := by
  rw [step] at hp
  split at hp
  · cases hp
  · split at hp
    · cases hp
      exact h
    · exact long_inRange h hp
    · exact absurd hp (short_ne_ok p _)
    · exact plain_inRange h hp

lemma steps_inRange {words : List String} (h : p.arguments.InRange)
    (hp : p.steps words = .ok p') : p'.arguments.InRange := by
  induction words generalizing p with
  | nil =>
      cases hp
      exact h
  | cons word words ih =>
      rw [steps] at hp
      split at hp
      · cases hp
      · rename_i q hq
        exact ih (step_inRange h hq) hp

end Progress

/-- **All numbers of a command line that is carried out are of 64 bits.** -/
theorem parse_inRange {words : List String} {a : Arguments} (h : parse words = .ok a) :
    a.InRange := by
  rw [parse] at h
  split at h
  · cases h
  · rename_i p hp
    split at h
    · cases h
    · rename_i q hq
      cases h
      exact Progress.resolve_inRange (Progress.steps_inRange .default hp) hq

end CommandLine

end StoreSoak
