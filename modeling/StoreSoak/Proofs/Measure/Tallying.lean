import StoreSoak.Proofs.Measure.Totals

/-!
Tallying does not depend on how the work is split.

A `Tallying` is a way to tally samples and pauses: fresh tallies take samples, batches of samples
and pauses, and tallies are merged two by two. Each of its steps can fail for want of room.

* `Totals.addFields` adds field by field, each sum being checked before the next one is looked at,
  and `map_totals_eq_addFields` says that to add exactly and to ask for room once is the same.
* `Totals.ofWork` is what samples and pauses come to. It does not depend on their order.
* `Tallying.toOption_tally`: every way of tallying comes to the totals of its work if there is room
  for them, and fails if there is not.
* `tallying_independent_of_split` puts this together with the laws of `merge`.
-/

namespace StoreSoak

namespace Totals

/-! ### Field by field -/

/-- The sum of two counters, if a counter holds it. -/
def addCounter (m n : ℕ) : Except Overflow ℕ :=
  if m + n < counterLimit then .ok (m + n) else .error .counter

/-- The sum of two times in nanoseconds: the whole seconds are added, then the nanoseconds beyond
them, which carry over where they make up a second. The seconds are a number of 64 bits. -/
def addTimes (m n : ℕ) : Except Overflow ℕ :=
  let second := Duration.nanosecondsPerSecond
  let seconds := m / second + n / second
  let rest := m % second + n % second
  if seconds < 18446744073709551616 then
    if rest < second then .ok (seconds * second + rest)
    else if seconds + 1 < 18446744073709551616 then
      .ok ((seconds + 1) * second + (rest - second))
    else .error .latency
  else .error .latency

/-- Totals added to those of a tally, one field after the other. -/
def addFields (a b : Totals) : Except Overflow Totals := do
  let iterations ← addCounter a.iterations b.iterations
  let transactional ← addCounter a.transactional b.transactional
  let direct ← addCounter a.direct b.direct
  let highPriority ← addCounter a.highPriority b.highPriority
  let aborted ← addCounter a.aborted b.aborted
  let pauses ← addCounter a.pauses b.pauses
  let latency ← addTimes a.latency b.latency
  return { iterations, transactional, direct, highPriority, aborted, pauses, latency
           longest := max a.longest b.longest }

/-- The carry makes no difference: the sum is the exact one, in the range of durations. -/
lemma addTimes_eq (m n : ℕ) :
    addTimes m n = if m + n < Duration.limit then .ok (m + n) else .error .latency := by
  rw [addTimes, Duration.limit, Duration.nanosecondsPerSecond]
  split
  · split
    · rw [if_pos (by omega)]
      exact congrArg _ (by omega)
    · split
      · rw [if_pos (by omega)]
        exact congrArg _ (by omega)
      · rw [if_neg (by omega)]
  · rw [if_neg (by omega)]

/-- What follows a sum of counters is done where there is room for it. -/
lemma addCounter_bind {α : Type} (m n : ℕ) (f : ℕ → Except Overflow α) :
    (addCounter m n >>= f) = if m + n < counterLimit then f (m + n) else .error .counter := by
  rw [addCounter]
  split <;> rfl

/-- The sums of the counters fail alike, whichever of them is the first to fail. -/
lemma addFields_eq_ite (a b : Totals) :
    addFields a b =
      if (a + b).CountersFit then
        (addTimes a.latency b.latency).map fun latency => { a + b with latency }
      else .error .counter := by
  simp only [addFields, addCounter_bind]
  by_cases h : (a + b).CountersFit
  · rw [if_pos h]
    have hfields : a.iterations + b.iterations < counterLimit ∧
        a.transactional + b.transactional < counterLimit ∧
        a.direct + b.direct < counterLimit ∧
        a.highPriority + b.highPriority < counterLimit ∧
        a.aborted + b.aborted < counterLimit ∧
        a.pauses + b.pauses < counterLimit := h
    obtain ⟨h1, h2, h3, h4, h5, h6⟩ := hfields
    rw [if_pos h1, if_pos h2, if_pos h3, if_pos h4, if_pos h5, if_pos h6]
    cases addTimes a.latency b.latency <;> rfl
  -- whichever counter is the first one without room, the error is the same
  · rw [if_neg h]
    split_ifs with h1 h2 h3 h4 h5 h6
    · exact absurd ⟨h1, h2, h3, h4, h5, h6⟩ h
    all_goals rfl

/-- To add exactly and to ask for room once is to add field by field. -/
lemma map_totals_eq_addFields (t : Tally) {d : Totals} (hlongest : d.longest < Duration.limit) :
    (Tally.ofTotals? (t.totals + d)).map Tally.totals = addFields t.totals d := by
  -- the longest of two latencies is one of them, so it needs no check
  have hmax : (t.totals + d).longest < Duration.limit :=
    Nat.max_lt.mpr ⟨t.latency_fits.2, hlongest⟩
  rw [addFields_eq_ite, addTimes_eq, Tally.ofTotals?]
  by_cases hcounters : (t.totals + d).CountersFit
  · rw [dif_pos hcounters, if_pos hcounters]
    by_cases hlatency : t.totals.latency + d.latency < Duration.limit
    · rw [dif_pos ⟨hlatency, hmax⟩, if_pos hlatency]
      rfl
    · rw [dif_neg fun h => hlatency h.1, if_neg hlatency]
      rfl
  · rw [dif_neg hcounters, if_neg hcounters]
    rfl

/-! ### What work comes to -/

/-- What samples and so many pauses come to. -/
def ofWork (samples : List Sample) (pauses : ℕ) : Totals :=
  { iterations := samples.length
    transactional := samples.countP fun s => s.kind = .transactional
    direct := samples.countP fun s => s.kind = .direct
    highPriority := samples.countP fun s => s.highPriority
    aborted := samples.countP fun s => s.committed = some false
    pauses
    latency := (samples.map fun s => s.latency.nanoseconds).sum
    longest := (samples.map fun s => s.latency.nanoseconds).foldr max 0 }

/-- The counters among the totals. -/
def counters (t : Totals) : List ℕ :=
  [t.iterations, t.transactional, t.direct, t.highPriority, t.aborted, t.pauses]

lemma ofWork_pause : ofWork [] 1 = pause := rfl

lemma ofWork_singleton (s : Sample) : ofWork [s] 0 = ofSample s := by
  simp [ofWork, ofSample, List.countP_singleton]

/-- The work of two comes to what theirs comes to together. -/
lemma ofWork_append (samples samples' : List Sample) (pauses pauses' : ℕ) :
    ofWork (samples ++ samples') (pauses + pauses') =
      ofWork samples pauses + ofWork samples' pauses' := by
  have hmax (ns ms : List ℕ) : (ns ++ ms).foldr max 0 = max (ns.foldr max 0) (ms.foldr max 0) := by
    induction ns with
    | nil => simp
    | cons n ns ih => simp only [List.cons_append, List.foldr_cons, ih, max_assoc]
  ext
  · exact List.length_append
  · exact List.countP_append
  · exact List.countP_append
  · exact List.countP_append
  · exact List.countP_append
  · rfl
  · show (List.map _ (samples ++ samples')).sum = _
    rw [List.map_append, List.sum_append]
    rfl
  · show (List.map _ (samples ++ samples')).foldr max 0 = _
    rw [List.map_append, hmax]
    rfl

/-- It does not depend on the order of the samples what work comes to. -/
lemma ofWork_perm {samples samples' : List Sample} (h : samples.Perm samples') (pauses : ℕ) :
    ofWork samples pauses = ofWork samples' pauses := by
  ext
  · exact h.length_eq
  · exact h.countP_eq _
  · exact h.countP_eq _
  · exact h.countP_eq _
  · exact h.countP_eq _
  · rfl
  · exact (h.map _).sum_eq
  · exact (h.map _).foldr_eq 0

/-- The longest latency of some work is one of its latencies. -/
lemma ofWork_consistent (samples : List Sample) (pauses : ℕ) :
    (ofWork samples pauses).Consistent := by
  induction samples with
  | nil => exact Nat.le_refl 0
  | cons s samples ih =>
      rw [Consistent] at ih ⊢
      simp only [ofWork, List.map_cons, List.foldr_cons, List.sum_cons] at ih ⊢
      omega

/-- There is no room for some work if a counter or the sum of the latencies goes beyond its
range. -/
lemma not_fits_ofWork_iff (samples : List Sample) (pauses : ℕ) :
    ¬ (ofWork samples pauses).Fits ↔
      (∃ n ∈ (ofWork samples pauses).counters, counterLimit ≤ n) ∨
        Duration.limit ≤ (samples.map fun s => s.latency.nanoseconds).sum := by
  have hcounters (t : Totals) : t.CountersFit ↔ ∀ n ∈ t.counters, n < counterLimit := by
    simp [counters, CountersFit]
  have hlatency : (ofWork samples pauses).LatencyFits ↔
      (samples.map fun s => s.latency.nanoseconds).sum < Duration.limit :=
    ⟨fun h => h.1, fun h => ⟨h, Nat.lt_of_le_of_lt (ofWork_consistent samples pauses) h⟩⟩
  rw [Fits, hcounters, hlatency, not_and_or, not_forall₂]
  simp only [Nat.not_lt, exists_prop]

end Totals

instance (t : Totals) : Decidable t.Fits := by
  unfold Totals.Fits; infer_instance

namespace Tally

/-! ### Partial addition -/

/-- Forgetting which overflow it was, totals have a tally if they fit. -/
lemma toOption_ofTotals? (t : Totals) :
    (ofTotals? t).toOption = if h : t.Fits then some ⟨t, h.1, h.2⟩ else none := by
  by_cases hfits : t.Fits
  · rw [dif_pos hfits, ofTotals?, dif_pos hfits.1, dif_pos hfits.2]
    rfl
  · rw [dif_neg hfits, ofTotals?]
    split
    · rename_i hcounters
      rw [dif_neg fun h => hfits ⟨hcounters, h⟩]
      rfl
    · rfl

/-- What fails or has certain totals fails, or has more of them, after an addition: an overflow on
the way is an overflow of the whole. -/
lemma toOption_bind_add {r : Except Overflow Tally} {t : Totals}
    (h : r.toOption = (ofTotals? t).toOption) (d : Totals) :
    (r.bind fun u => ofTotals? (u.totals + d)).toOption = (ofTotals? (t + d)).toOption := by
  rw [toOption_ofTotals?] at h
  cases r with
  | error o =>
      have hnot : ¬ t.Fits := by
        intro hfits
        rw [dif_pos hfits] at h
        cases h
      -- totals only grow, so what did not fit before the addition does not fit after it
      have hsum : ¬ (t + d).Fits := fun hfits => hnot hfits.of_add
      rw [toOption_ofTotals?, dif_neg hsum]
      rfl
  | ok u =>
      split at h
      · cases h
        rfl
      · cases h

/-- The same for a batch of samples. -/
lemma toOption_bind_aggregate {r : Except Overflow Tally} {samples : List Sample} {pauses : ℕ}
    (h : r.toOption = (ofTotals? (.ofWork samples pauses)).toOption) (batch : List Sample) :
    (r.bind fun u => u.aggregate batch).toOption =
      (ofTotals? (.ofWork (samples ++ batch) pauses)).toOption := by
  -- by induction on the batch: what is tallied already grows by one sample a step
  induction batch generalizing r samples with
  | nil =>
      rw [List.append_nil, ← h]
      cases r <;> rfl
  | cons s batch ih =>
      have hone : (r.bind fun u => u.consume s).toOption =
          (ofTotals? (.ofWork (samples ++ [s]) pauses)).toOption := by
        rw [← Nat.add_zero pauses, Totals.ofWork_append, Totals.ofWork_singleton]
        exact toOption_bind_add h (Totals.ofSample s)
      have hrest := ih hone
      rw [List.append_assoc, List.singleton_append] at hrest
      rw [← hrest]
      cases r <;> rfl

/-- The same for the totals of two tallies. -/
lemma toOption_bind_merge {r r' : Except Overflow Tally} {t t' : Totals}
    (h : r.toOption = (ofTotals? t).toOption) (h' : r'.toOption = (ofTotals? t').toOption) :
    (r.bind fun u => r'.bind fun v => u.merge v).toOption = (ofTotals? (t + t')).toOption := by
  have hsum := toOption_bind_add h t'
  rw [toOption_ofTotals?] at h'
  cases r' with
  | ok v =>
      split at h'
      · cases h'
        exact hsum
      · cases h'
  | error o =>
      -- if the right side has overflowed, so has the sum, whatever the left side holds
      have hnot : ¬ t'.Fits := by
        intro hfits
        rw [dif_pos hfits] at h'
        cases h'
      have hsum : ¬ (t + t').Fits := by
        intro hfits
        rw [add_comm] at hfits
        exact hnot hfits.of_add
      rw [toOption_ofTotals?, dif_neg hsum]
      cases r <;> rfl

lemma merge_comm (a b : Tally) : a.merge b = b.merge a := by
  rw [merge, merge, add_comm]

lemma merge_empty (a : Tally) : a.merge empty = .ok a := by
  have hzero : a.totals + empty.totals = a.totals := add_zero a.totals
  rw [merge, hzero, ofTotals?_totals]

lemma empty_merge (a : Tally) : empty.merge a = .ok a := by
  rw [merge_comm, merge_empty]

/-- However three tallies are merged, it fails or comes to the same. -/
lemma merge_assoc (a b c : Tally) :
    ((a.merge b).bind fun t => t.merge c).toOption =
      ((b.merge c).bind fun t => a.merge t).toOption := by
  have hleft : ((a.merge b).bind fun t => t.merge c).toOption =
      (ofTotals? (a.totals + b.totals + c.totals)).toOption :=
    toOption_bind_add rfl c.totals
  have hright : ((b.merge c).bind fun t => t.merge a).toOption =
      (ofTotals? (b.totals + c.totals + a.totals)).toOption :=
    toOption_bind_add rfl a.totals
  have hturn : (fun t : Tally => t.merge a) = fun t => a.merge t :=
    funext fun t => t.merge_comm a
  rw [hturn] at hright
  rw [hleft, hright, add_comm (b.totals + c.totals), add_assoc]

end Tally

/-! ### Ways of tallying -/

/-- A way of tallying. -/
inductive Tallying where
  /-- A tally of nothing. -/
  | fresh
  | consume (w : Tallying) (s : Sample)
  | aggregate (w : Tallying) (batch : List Sample)
  | recordPause (w : Tallying)
  | merge (a b : Tallying)

namespace Tallying

/-- The samples of a way of tallying. -/
def samples : Tallying → List Sample
  | .fresh => []
  | .consume w s => w.samples ++ [s]
  | .aggregate w batch => w.samples ++ batch
  | .recordPause w => w.samples
  | .merge a b => a.samples ++ b.samples

/-- The number of its pauses. -/
def pauses : Tallying → ℕ
  | .fresh => 0
  | .consume w _ => w.pauses
  | .aggregate w _ => w.pauses
  | .recordPause w => w.pauses + 1
  | .merge a b => a.pauses + b.pauses

/-- Where it leads: a tally, or the first overflow on the way. -/
def tally : Tallying → Except Overflow Tally
  | .fresh => .ok Tally.empty
  | .consume w s => w.tally.bind fun t => t.consume s
  | .aggregate w batch => w.tally.bind fun t => t.aggregate batch
  | .recordPause w => w.tally.bind fun t => t.recordPause
  | .merge a b => a.tally.bind fun t => b.tally.bind fun u => t.merge u

/-- Every way of tallying comes to the totals of its work if there is room for them, and fails if
there is not. -/
theorem toOption_tally (w : Tallying) :
    w.tally.toOption = (Tally.ofTotals? (Totals.ofWork w.samples w.pauses)).toOption := by
  -- one case for each way to go on tallying; the totals of the work carry the induction
  induction w with
  | fresh => rfl
  | consume w s ih =>
      rw [samples, pauses, ← Nat.add_zero w.pauses, Totals.ofWork_append, Totals.ofWork_singleton]
      exact Tally.toOption_bind_add ih (Totals.ofSample s)
  | aggregate w batch ih =>
      rw [samples, pauses]
      exact Tally.toOption_bind_aggregate ih batch
  | recordPause w ih =>
      have hwork := Totals.ofWork_append w.samples [] w.pauses 1
      rw [List.append_nil, Totals.ofWork_pause] at hwork
      rw [samples, pauses, hwork]
      exact Tally.toOption_bind_add ih Totals.pause
  | merge a b iha ihb =>
      rw [samples, pauses, Totals.ofWork_append]
      exact Tally.toOption_bind_merge iha ihb

/-- A way of tallying fails if and only if its work exceeds the range of a counter or of the
latencies. -/
lemma exists_error_iff (w : Tallying) :
    (∃ o, w.tally = .error o) ↔
      (∃ n ∈ (Totals.ofWork w.samples w.pauses).counters, Totals.counterLimit ≤ n) ∨
        Duration.limit ≤ (w.samples.map fun s => s.latency.nanoseconds).sum := by
  have htally := w.toOption_tally
  rw [Tally.toOption_ofTotals?] at htally
  rw [← Totals.not_fits_ofWork_iff]
  cases hw : w.tally with
  | error o =>
      constructor
      · rintro - hfits
        rw [hw, dif_pos hfits] at htally
        cases htally
      · intro _
        exact ⟨o, rfl⟩
  | ok t =>
      constructor
      · rintro ⟨o, ho⟩
        cases ho
      · intro hfits
        rw [hw, dif_neg hfits] at htally
        cases htally

/-- The tally of a way of tallying holds what its work comes to. -/
lemma totals_of_tally {w : Tallying} {t : Tally} (h : w.tally = .ok t) :
    t.totals = Totals.ofWork w.samples w.pauses := by
  have htally := w.toOption_tally
  rw [h, Tally.toOption_ofTotals?] at htally
  split at htally
  · cases htally
    rfl
  · cases htally

end Tallying

/-- **Tallying does not depend on how the work is split.** Each step of it adds field by field. All
ways of tallying the same samples, in whatever order and batches, and as many pauses lead to the
same tally, which holds what they come to; or all of them fail, and they do so exactly if a counter
or the sum of the latencies goes beyond its range. To merge any tallies is commutative and
associative, with the tally of nothing as identity, both sides of each law having a result for the
same tallies. -/
theorem tallying_independent_of_split :
    (∀ (t u : Tally) (s : Sample),
      (t.consume s).map Tally.totals = Totals.addFields t.totals (.ofSample s) ∧
      t.recordPause.map Tally.totals = Totals.addFields t.totals .pause ∧
      (t.merge u).map Tally.totals = Totals.addFields t.totals u.totals) ∧
    (∀ w w' : Tallying, w.samples.Perm w'.samples → w.pauses = w'.pauses →
      w.tally.toOption = w'.tally.toOption) ∧
    (∀ w : Tallying,
      ((∃ o, w.tally = .error o) ↔
        (∃ n ∈ (Totals.ofWork w.samples w.pauses).counters, Totals.counterLimit ≤ n) ∨
          Duration.limit ≤ (w.samples.map fun s => s.latency.nanoseconds).sum) ∧
      ∀ t, w.tally = .ok t → t.totals = Totals.ofWork w.samples w.pauses) ∧
    ∀ a b c : Tally,
      a.merge b = b.merge a ∧
      ((a.merge b).bind fun t => t.merge c).toOption =
        ((b.merge c).bind fun t => a.merge t).toOption ∧
      a.merge Tally.empty = .ok a ∧ Tally.empty.merge a = .ok a := by
  refine ⟨?_, ?_, ?_, ?_⟩
  · intro t u s
    exact ⟨Totals.map_totals_eq_addFields t s.latency.in_range,
      Totals.map_totals_eq_addFields t (by decide),
      Totals.map_totals_eq_addFields t u.latency_fits.2⟩
  · intro w w' hsamples hpauses
    rw [w.toOption_tally, w'.toOption_tally, Totals.ofWork_perm hsamples, hpauses]
  · intro w
    exact ⟨w.exists_error_iff, fun t => Tallying.totals_of_tally⟩
  · intro a b c
    exact ⟨a.merge_comm b, a.merge_assoc b c, a.merge_empty, a.empty_merge⟩

/-- Two ways of tallying the same three samples and a pause, the latencies of which just fit. One
nanosecond more, and both of them fail. -/
theorem tallying_independent_of_split_at_limit :
    let first (latency : ℕ) (h : latency < Duration.limit) : Sample :=
      ⟨1, .direct, false, ⟨latency, h⟩, none⟩
    let second : Sample := ⟨2, .transactional, true, ⟨1, by decide⟩, some false⟩
    let third : Sample := ⟨3, .direct, true, Duration.zero, none⟩
    let inTurn (s : Sample) : Tallying := (.recordPause (.aggregate .fresh [s, second, third]))
    let apart (s : Sample) : Tallying :=
      .merge (.consume (.recordPause .fresh) third)
        (.merge .fresh (.merge (.consume .fresh second) (.consume .fresh s)))
    let fitting := first (Duration.limit - 2) (by decide)
    let exceeding := first (Duration.limit - 1) (by decide)
    (inTurn fitting).tally.toOption = (apart fitting).tally.toOption ∧
      (inTurn fitting).tally.toOption.isSome ∧
      (inTurn exceeding).tally.toOption = (apart exceeding).tally.toOption ∧
      (inTurn exceeding).tally.toOption = none := by
  intro first second third inTurn apart fitting exceeding
  refine ⟨?_, by decide, ?_, by decide⟩
  · exact tallying_independent_of_split.2.1 (inTurn fitting) (apart fitting) (by decide) rfl
  · exact tallying_independent_of_split.2.1 (inTurn exceeding) (apart exceeding) (by decide) rfl

end StoreSoak
