import StoreSoak.Proofs.Worker.Moves

/-!
The pace of a worker whose calls take no time.

Time goes by for such a worker in its pauses alone, so its iteration tells the time. A deadline that
falls within a pause stops it there, and the pause has been recorded by then.

* `Pace` is what the course of such a worker depends on, `Timing` what comes of it, and
  `Pace.timing` is the closed form.
* `Paced`: the invariant, which says of each stage at what time a worker is in it. Each move has a
  lemma, and `Paced.tick` is about time that goes by within a pause.
* `Paced.dvd_of_busy`: between the ends of two pauses a worker pauses, or it has left its loop.
* `Paced.keeps`: the report of a worker that kept its pace is the one of the closed form.
-/

namespace StoreSoak

/-- What the course of a worker depends on whose calls take no time: the number of its last
iteration, the interval of its pauses, how long each of them lasts, and the moment at which the
shutdown signal is raised, if it is. Times are in nanoseconds. -/
structure Pace where
  last : ℕ
  interval : ℕ
  pause : ℕ
  deadline : Option ℕ
  deriving DecidableEq

/-- How a worker ends: whether it is stopped early, after how many iterations and how many pauses,
and when it leaves its loop. -/
structure Timing where
  cancelled : Bool
  iterations : ℕ
  pauses : ℕ
  time : ℕ
  deriving DecidableEq

namespace Pace

/-- The pace under a plan. -/
def of (p : Plan) (deadline : Option ℕ) : Pace :=
  ⟨p.last, p.throttleInterval, p.throttlePause.waited, deadline⟩

/-- The end of a worker that nothing stops. Without an interval there are no pauses. -/
def whole (c : Pace) : Timing :=
  ⟨false, c.last, c.last / c.interval, c.pause * (c.last / c.interval)⟩

/-- The end of a worker that is stopped within a pause. -/
def cut (c : Pace) (deadline : ℕ) : Timing :=
  ⟨true, c.interval * (deadline / c.pause + 1), deadline / c.pause + 1, deadline⟩

/-- **The closed form**: the deadline comes after the last pause, or it cuts one short. -/
def timing (c : Pace) : Timing :=
  match c.deadline with
  | none => c.whole
  | some d => if c.interval = 0 ∨ c.last / c.interval ≤ d / c.pause then c.whole else c.cut d

/-- When and after how many calls a worker leaves its loop, by the way in which it does. -/
def Leaves (c : Pace) (now calls : ℕ) : Exit → Prop
  | .completed => now = c.pause * (c.last / c.interval)
  | .cancelled => 0 < c.interval ∧ c.deadline = some now ∧
      calls = c.interval * (now / c.pause + 1)
  | .failed _ => False
  | .panicked _ => False

end Pace

/-- A report of a worker that neither failed nor did more or less than it had the time for. -/
structure WorkerReport.Keeps (t : Timing) (r : WorkerReport) : Prop where
  failure : r.failure = none
  cancelled : r.cancelled = t.cancelled
  iterations : r.tally.totals.iterations = t.iterations
  pauses : r.tally.totals.pauses = t.pauses

namespace Worker

/-- What time it is at the stage of a worker. A pause begins where the one before has ended, and
time goes by within it; a call takes none. -/
def Paced (c : Pace) (now : ℕ) (w : Worker) : Prop :=
  match w.stage with
  | .parked => now = 0
  | .looping k | .cleared k => now = c.pause * ((k - 1) / c.interval)
  | .calling k _ since => since = now ∧ now = c.pause * ((k - 1) / c.interval)
  | .pausing k wake => c.interval ∣ k ∧ wake = c.pause * (k / c.interval) ∧
      c.pause * (k / c.interval - 1) ≤ now ∧ now ≤ wake
  | .leaving e | .gone e => c.Leaves now w.calls.length e

variable {c : Pace} {p : Plan} {deadline : Option ℕ} {g : Generator} {w : Worker} {now k wake : ℕ}
  {e : Exit}

lemma Paced.of_parked (h : w.Paced c now) (hs : w.stage = .parked) : now = 0 := by
  rwa [Paced, hs] at h

lemma Paced.of_looping (h : w.Paced c now) (hs : w.stage = .looping k) :
    now = c.pause * ((k - 1) / c.interval) := by
  rwa [Paced, hs] at h

lemma Paced.of_cleared (h : w.Paced c now) (hs : w.stage = .cleared k) :
    now = c.pause * ((k - 1) / c.interval) := by
  rwa [Paced, hs] at h

lemma Paced.of_calling (h : w.Paced c now) {f : Flags} {since : ℕ}
    (hs : w.stage = .calling k f since) :
    since = now ∧ now = c.pause * ((k - 1) / c.interval) := by
  rwa [Paced, hs] at h

lemma Paced.of_pausing (h : w.Paced c now) (hs : w.stage = .pausing k wake) :
    c.interval ∣ k ∧ wake = c.pause * (k / c.interval) ∧
      c.pause * (k / c.interval - 1) ≤ now ∧ now ≤ wake := by
  rwa [Paced, hs] at h

lemma Paced.of_leaving (h : w.Paced c now) (hs : w.stage = .leaving e) :
    c.Leaves now w.calls.length e := by
  rwa [Paced, hs] at h

lemma Paced.of_gone (h : w.Paced c now) (hs : w.stage = .gone e) :
    c.Leaves now w.calls.length e := by
  rwa [Paced, hs] at h

/-! ### The moves -/

lemma Paced.release (h : w.Paced c now) (hs : w.stage = .parked) :
    (w.release true).1.Paced c now := by
  have hnow := h.of_parked hs
  simp only [Worker.release, hs]
  show now = c.pause * ((1 - 1) / c.interval)
  rw [hnow, Nat.sub_self, Nat.zero_div, Nat.mul_zero]

lemma Paced.check (h : w.Paced (.of p deadline) now) (hsound : Sound p g w)
    (hs : w.stage = .looping k) : (w.check p false).1.Paced (.of p deadline) now := by
  have hnow := h.of_looping hs
  obtain ⟨hk, hsettled⟩ := hsound.of_looping hs
  simp only [Worker.check, hs]
  by_cases hlast : p.maxIterations ≤ k
  · rw [if_pos hlast]
    have hbounded := hsettled.bounded
    have heq : k - 1 = p.last := by
      rw [Plan.last] at hbounded ⊢
      omega
    rw [heq] at hnow
    exact hnow
  · rw [if_neg hlast]
    exact hnow

lemma Paced.issue (h : w.Paced c now) (hs : w.stage = .cleared k) :
    (w.issue p now).1.Paced c now := by
  have hnow := h.of_cleared hs
  simp only [Worker.issue, hs]
  exact ⟨rfl, hnow⟩

/-- A worker that does not fail at its call is at the head of its loop again at once, or it pauses
from then on. -/
lemma Paced.receive (h : w.Paced (.of p deadline) now) (hsound : Sound p g w) {f : Flags}
    {since : ℕ} (hs : w.stage = .calling k f since) (reply : Reply (Option Bool))
    (hfail : ∀ e, (w.receive p now reply).1.stage = .leaving e → ∃ i, e.failure? i = none) :
    (w.receive p now reply).1.Paced (.of p deadline) now := by
  have hnow : now = p.throttlePause.waited * ((k - 1) / p.throttleInterval) := (h.of_calling hs).2
  obtain ⟨calls, -, hk, -, -⟩ := hsound.of_calling hs
  have hpos : 0 < k := by omega
  have hstep := Plan.pauses_succ p.throttleInterval (k - 1)
  rw [Nat.sub_add_cancel hpos] at hstep
  rcases receive_stage (p := p) hs now reply with ⟨e, he, hfailed⟩ | ⟨hth, he⟩ | ⟨hth, he⟩
  · obtain ⟨i, hi⟩ := hfail e he
    exact absurd hi (hfailed i)
  · -- the pause that begins now is the one after iteration `k`
    rw [hth, if_pos rfl] at hstep
    have hdvd : p.throttleInterval ∣ k := by
      simp only [Plan.throttles, Bool.and_eq_true, decide_eq_true_eq] at hth
      exact Nat.dvd_of_mod_eq_zero hth.2
    have hwake : now + p.throttlePause.waited =
        p.throttlePause.waited * (k / p.throttleInterval) :=
      calc
        now + p.throttlePause.waited
          = p.throttlePause.waited * ((k - 1) / p.throttleInterval) + p.throttlePause.waited := by
            rw [← hnow]
        _ = p.throttlePause.waited * ((k - 1) / p.throttleInterval + 1) := (Nat.mul_succ _ _).symm
        _ = p.throttlePause.waited * (k / p.throttleInterval) := by rw [hstep]
    rw [Paced, he]
    refine ⟨hdvd, hwake, ?_, Nat.le_add_right _ _⟩
    show p.throttlePause.waited * (k / p.throttleInterval - 1) ≤ now
    rw [hstep, Nat.add_sub_cancel, ← hnow]
  · rw [hth, if_neg Bool.false_ne_true, Nat.add_zero] at hstep
    rw [Paced, he]
    show now = p.throttlePause.waited * ((k + 1 - 1) / p.throttleInterval)
    rw [Nat.add_sub_cancel, hstep]
    exact hnow

lemma Paced.resume (h : w.Paced c now) (hs : w.stage = .pausing k wake) (hwake : wake ≤ now) :
    w.resume.1.Paced c now := by
  obtain ⟨-, heq, -, hle⟩ := h.of_pausing hs
  simp only [Worker.resume, hs]
  show now = c.pause * ((k + 1 - 1) / c.interval)
  rw [Nat.add_sub_cancel]
  omega

/-- A deadline within a pause cuts it short. -/
lemma Paced.interrupt (h : w.Paced (.of p (some now)) now) (hsound : Sound p g w)
    (hs : w.stage = .pausing k wake) (hdvd : ¬ p.throttlePause.waited ∣ now) :
    w.interrupt.1.Paced (.of p (some now)) now := by
  obtain ⟨hk, hpos, -⟩ := hsound.of_pausing hs
  obtain ⟨hinterval, hwake, hfrom, huntil⟩ := h.of_pausing hs
  change p.throttleInterval ∣ k at hinterval
  change wake = p.throttlePause.waited * (k / p.throttleInterval) at hwake
  change p.throttlePause.waited * (k / p.throttleInterval - 1) ≤ now at hfrom
  have hpositive : 0 < p.throttleInterval := Nat.pos_of_dvd_of_pos hinterval hpos
  -- the moment lies strictly between the ends of two pauses
  have hlt : now < p.throttlePause.waited * (k / p.throttleInterval) :=
    lt_of_le_of_ne (hwake ▸ huntil) fun heq => hdvd (heq ▸ Nat.dvd_mul_right _ _)
  have hquotient : now / p.throttlePause.waited = k / p.throttleInterval - 1 := by
    refine Nat.div_eq_of_lt_le (by rwa [Nat.mul_comm]) ?_
    rwa [Nat.sub_add_cancel (Nat.div_pos (Nat.le_of_dvd hpos hinterval) hpositive), Nat.mul_comm]
  simp only [Worker.interrupt, hs, Worker.stop]
  refine ⟨hpositive, rfl, ?_⟩
  show w.calls.length = p.throttleInterval * (now / p.throttlePause.waited + 1)
  rw [hquotient, Nat.sub_add_cancel (Nat.div_pos (Nat.le_of_dvd hpos hinterval) hpositive),
    Nat.mul_div_cancel' hinterval, hk]

lemma Paced.finish (h : w.Paced c now) (hs : w.stage = .leaving e) : w.finish.1.Paced c now := by
  have hleaves := h.of_leaving hs
  simp only [Worker.finish, hs]
  exact hleaves

/-- Time goes by within a pause. -/
lemma Paced.tick (h : w.Paced c now) (hs : w.stage = .pausing k wake) {d : ℕ}
    (hwake : now + d ≤ wake) : w.Paced c (now + d) := by
  obtain ⟨hdvd, heq, hfrom, -⟩ := h.of_pausing hs
  rw [Paced, hs]
  exact ⟨hdvd, heq, by omega, hwake⟩

/-! ### What the time tells -/

/-- A worker is busy only when a pause has just ended, or at the beginning. -/
lemma Paced.dvd_of_busy (h : w.Paced c now) (hpausing : ∀ k wake, w.stage ≠ .pausing k wake)
    (hleft : ∀ e, w.stage ≠ .leaving e ∧ w.stage ≠ .gone e) : c.pause ∣ now := by
  cases hs : w.stage with
  | parked =>
      rw [h.of_parked hs]
      exact dvd_zero c.pause
  | looping k => exact ⟨_, h.of_looping hs⟩
  | cleared k => exact ⟨_, h.of_cleared hs⟩
  | calling k f since => exact ⟨_, (h.of_calling hs).2⟩
  | pausing k wake => exact absurd hs (hpausing k wake)
  | leaving e => exact absurd hs (hleft e).1
  | gone e => exact absurd hs (hleft e).2

/-- Nobody has left its loop while somebody else still pauses. -/
lemma Paced.not_left (h : w.Paced (.of p deadline) now) (hleft : w.stage = .leaving e ∨
    w.stage = .gone e) (hdeadline : deadline ≠ some now) {v : Worker} {g : Generator}
    (hv : v.Paced (.of p deadline) now) (hsound : Sound p g v) (hs : v.stage = .pausing k wake)
    (hwake : now < wake) : False := by
  -- whoever has left has left at the end of its pauses, or at the deadline
  have hleaves : (Pace.of p deadline).Leaves now w.calls.length e :=
    hleft.elim h.of_leaving h.of_gone
  cases e with
  | completed =>
      obtain ⟨-, heq, -, -⟩ := hv.of_pausing hs
      obtain ⟨hk, -, hsettled⟩ := hsound.of_pausing hs
      have hle : wake ≤ now :=
        calc
          wake = p.throttlePause.waited * (k / p.throttleInterval) := heq
          _ ≤ p.throttlePause.waited * (p.last / p.throttleInterval) :=
            Nat.mul_le_mul_left _ (Nat.div_le_div_right (hk ▸ hsettled.bounded))
          _ = now := hleaves.symm
      exact Nat.not_lt.mpr hle hwake
  | cancelled => exact hdeadline hleaves.2.1
  | failed e => exact hleaves
  | panicked reason => exact hleaves

/-- When a worker has left its loop before the deadline is over, it is the time of the closed form,
and it has done what the closed form says. -/
theorem Paced.keeps (h : w.Paced (.of p deadline) now) (hsound : Sound p g w)
    (hleft : w.stage = .leaving e ∨ w.stage = .gone e) (hearly : ∀ d, deadline = some d → now ≤ d)
    (hpause : 0 < p.throttlePause.waited) :
    now = (Pace.of p deadline).timing.time ∧
      (w.reportOf e).Keeps (Pace.of p deadline).timing := by
  have hleaves : (Pace.of p deadline).Leaves now w.calls.length e :=
    hleft.elim h.of_leaving h.of_gone
  have hended : Ended p w.index w.calls w.tally.totals e :=
    hleft.elim hsound.of_leaving hsound.of_gone
  generalize hcalls : w.calls = calls at hended hleaves
  generalize htotals : w.tally.totals = t at hended
  cases hended with
  | completed hsettled hlast =>
      change now = p.throttlePause.waited * (p.last / p.throttleInterval) at hleaves
      -- the deadline has not cut the pauses short
      have htiming : (Pace.of p deadline).timing = (Pace.of p deadline).whole := by
        cases hd : deadline with
        | none => rfl
        | some d =>
            have hle : p.last / p.throttleInterval ≤ d / p.throttlePause.waited := by
              rw [Nat.le_div_iff_mul_le hpause, Nat.mul_comm, ← hleaves]
              exact hearly d hd
            exact if_pos (.inr hle)
      rw [htiming]
      refine ⟨hleaves, rfl, rfl, ?_, ?_⟩
      · show w.tally.totals.iterations = p.last
        rw [htotals, hsettled.iterations, hlast]
      · show w.tally.totals.pauses = p.last / p.throttleInterval
        rw [htotals, hsettled.pauses, hlast]
  | cancelled hsettled =>
      obtain ⟨hinterval, hdeadline, hlength⟩ := hleaves
      change 0 < p.throttleInterval at hinterval
      change deadline = some now at hdeadline
      change calls.length = p.throttleInterval * (now / p.throttlePause.waited + 1) at hlength
      -- there was a pause left when the deadline came
      have hmore : ¬ p.last / p.throttleInterval ≤ now / p.throttlePause.waited := by
        have hbounded := hsettled.bounded
        rw [hlength, Nat.mul_comm, ← Nat.le_div_iff_mul_le hinterval] at hbounded
        omega
      have htiming : (Pace.of p deadline).timing = (Pace.of p deadline).cut now := by
        rw [hdeadline]
        exact if_neg (not_or.mpr ⟨Nat.ne_of_gt hinterval, hmore⟩)
      rw [htiming]
      refine ⟨rfl, rfl, rfl, ?_, ?_⟩
      · show w.tally.totals.iterations = p.throttleInterval * (now / p.throttlePause.waited + 1)
        rw [htotals, hsettled.iterations, hlength]
      · show w.tally.totals.pauses = now / p.throttlePause.waited + 1
        rw [htotals, hsettled.pauses, hlength, Nat.mul_div_cancel_left _ hinterval]
  | failed h hlast hc => exact hleaves.elim
  | guarded h hlast hstrict hc heven hcount hpauses => exact hleaves.elim
  | panicked reason h => exact hleaves.elim

/-- What the time tells about a worker: its pauses come one right after the other, and it leaves its
loop at the time of the closed form. -/
structure Punctual (c : Pace) (now : ℕ) (w : Worker) : Prop where
  /-- The pause after an iteration ends when so many pauses are over. -/
  pausing : ∀ k wake, w.stage = .pausing k wake → wake = c.pause * (k / c.interval) ∧ now ≤ wake
  /-- The next iteration begins at once. -/
  looping : ∀ k, w.stage = .looping (k + 1) → now = c.pause * (k / c.interval)
  left : ∀ e, w.stage = .leaving e ∨ w.stage = .gone e → now = c.timing.time

lemma Paced.punctual (h : w.Paced (.of p deadline) now) (hsound : Sound p g w)
    (hearly : ∀ d, deadline = some d → now ≤ d) (hpause : 0 < p.throttlePause.waited) :
    w.Punctual (.of p deadline) now := by
  refine ⟨fun k wake hs => ?_, fun k hs => ?_, fun e hleft => ?_⟩
  · obtain ⟨-, hwake, -, hle⟩ := h.of_pausing hs
    exact ⟨hwake, hle⟩
  · exact h.of_looping hs
  · exact (h.keeps hsound hleft hearly hpause).1

end Worker

end StoreSoak
