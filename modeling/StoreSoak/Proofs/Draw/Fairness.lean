import Mathlib.Algebra.Order.Floor.Div
import Mathlib.Tactic
import StoreSoak.Proofs.Worker.Draws

/-!
Draws are fair.

A word `w` draws `d` below `n` when the product `w * n` lies in the window that begins at
`d * 2 ^ 32` and is `n * 2 ^ leadingZeros n` long. A window of length `n * k` holds `k` multiples of
`n` wherever it begins, so all the numbers below `n` are drawn by equally many words.

* `draw?_eq_some_iff`: the windows.
* `card_drawing`, `card_accepted`, `card_rejected`: the words that draw a number, that draw any, and
  that draw none.
* `search_eq`: a generator draws by the first of its words that is not rejected.
* `Fair` puts this together, and `odds_exact` says it for the odds of a plan.
-/

namespace StoreSoak

namespace Draw

/-! ### The windows -/

section Windows

variable {n : UInt32}

lemma toNat_pos (hn : n ≠ 0) : 0 < n.toNat :=
  Nat.pos_of_ne_zero fun h => hn (UInt32.toNat_inj.mp h)

/-- The number of words that draw each of the numbers below `n`. -/
def share (n : UInt32) : ℕ :=
  2 ^ leadingZeros n

/-- The windows fill at least half of the room between their beginnings, and they leave room. -/
lemma window_bounds (hn : n ≠ 0) :
    2 ^ 31 ≤ n.toNat * share n ∧ n.toNat * share n < 2 ^ 32 := by
  have hne : n.toNat ≠ 0 := (toNat_pos hn).ne'
  have hlow : 2 ^ n.toNat.log2 ≤ n.toNat := Nat.log2_self_le hne
  have hhigh : n.toNat < 2 ^ (n.toNat.log2 + 1) := Nat.lt_log2_self
  have hlog : n.toNat.log2 ≤ 31 := by
    have hlt : n.toNat.log2 < 32 := (Nat.log2_lt hne).mpr n.toNat_lt
    omega
  rw [share, leadingZeros, if_neg hn]
  -- the shift brings the leading one of the bound to the leading bit of a word
  constructor
  · calc
      2 ^ 31 = 2 ^ n.toNat.log2 * 2 ^ (31 - n.toNat.log2) := by
        rw [← pow_add, Nat.add_sub_cancel' hlog]
      _ ≤ n.toNat * 2 ^ (31 - n.toNat.log2) := Nat.mul_le_mul_right _ hlow
  · calc
      n.toNat * 2 ^ (31 - n.toNat.log2)
        < 2 ^ (n.toNat.log2 + 1) * 2 ^ (31 - n.toNat.log2) :=
          Nat.mul_lt_mul_of_pos_right hhigh (Nat.two_pow_pos _)
      _ = 2 ^ 32 := by
        rw [← pow_add]
        congr 1
        omega

/-- The zone ends where the window does. -/
lemma toNat_zone (hn : n ≠ 0) : (zone n).toNat + 1 = n.toNat * share n := by
  obtain ⟨hlow, hhigh⟩ := window_bounds hn
  have hshift : (n <<< UInt32.ofNat (leadingZeros n)).toNat = n.toNat * share n := by
    have hzeros : leadingZeros n < 32 := by
      rw [leadingZeros, if_neg hn]
      omega
    rw [UInt32.toNat_shiftLeft, UInt32.toNat_ofNat_of_lt' (by show _ < 2 ^ 32; omega),
      Nat.mod_eq_of_lt hzeros, Nat.shiftLeft_eq]
    exact Nat.mod_eq_of_lt hhigh
  have hone : (1 : UInt32) ≤ n <<< UInt32.ofNat (leadingZeros n) := by
    rw [UInt32.le_iff_toNat_le, hshift]
    exact Nat.le_trans (by decide) hlow
  rw [zone, UInt32.toNat_sub_of_le _ _ hone, hshift]
  show n.toNat * share n - 1 + 1 = _
  omega

lemma product_lt (w n : UInt32) : w.toNat * n.toNat < 2 ^ 64 :=
  calc
    w.toNat * n.toNat < 2 ^ 32 * 2 ^ 32 := Nat.mul_lt_mul'' w.toNat_lt n.toNat_lt
    _ = 2 ^ 64 := by norm_num

/-- What a word draws, in numbers. -/
lemma draw?_eq (hn : n ≠ 0) (w : UInt32) :
    draw? n w =
      if w.toNat * n.toNat % 2 ^ 32 < n.toNat * share n then
        some (UInt32.ofNat (w.toNat * n.toNat / 2 ^ 32))
      else none := by
  have hproduct : (w.toUInt64 * n.toUInt64).toNat = w.toNat * n.toNat := by
    rw [UInt64.toNat_mul, UInt32.toNat_toUInt64, UInt32.toNat_toUInt64]
    exact Nat.mod_eq_of_lt (product_lt w n)
  have hlow : (w.toUInt64 * n.toUInt64).toUInt32 ≤ zone n ↔
      w.toNat * n.toNat % 2 ^ 32 < n.toNat * share n := by
    rw [UInt32.le_iff_toNat_le, UInt64.toNat_toUInt32, hproduct, ← toNat_zone hn, Nat.lt_succ_iff]
  have hhigh : ((w.toUInt64 * n.toUInt64) >>> 32).toUInt32 =
      UInt32.ofNat (w.toNat * n.toNat / 2 ^ 32) := by
    apply UInt32.toNat_inj.mp
    rw [UInt64.toNat_toUInt32, UInt64.toNat_shiftRight, hproduct, Nat.shiftRight_eq_div_pow]
    exact UInt32.toNat_ofNat.symm
  rw [draw?]
  simp only [hlow, hhigh]

/-- A word draws a number when its product with `n` lies in the window of that number. -/
lemma draw?_eq_some_iff (hn : n ≠ 0) {w d : UInt32} :
    draw? n w = some d ↔
      d.toNat * 2 ^ 32 ≤ w.toNat * n.toNat ∧
        w.toNat * n.toNat < d.toNat * 2 ^ 32 + n.toNat * share n := by
  have hsmall : w.toNat * n.toNat / 2 ^ 32 < 2 ^ 32 := by
    have hlt := product_lt w n
    omega
  have hdraw : UInt32.ofNat (w.toNat * n.toNat / 2 ^ 32) = d ↔
      w.toNat * n.toNat / 2 ^ 32 = d.toNat := by
    rw [← UInt32.toNat_inj, UInt32.toNat_ofNat_of_lt' hsmall]
  have hhigh := (window_bounds hn).2
  rw [draw?_eq hn]
  -- what is left is about quotient and remainder by the size of a word
  generalize n.toNat * share n = window at hhigh ⊢
  generalize w.toNat * n.toNat = product at hsmall hdraw ⊢
  split
  · rw [Option.some_inj, hdraw]
    omega
  · simp only [reduceCtorEq, false_iff]
    omega

/-- No word draws anything that is not below `n`. -/
lemma lt_of_draw? (hn : n ≠ 0) {w d : UInt32} (h : draw? n w = some d) : d < n := by
  have hle := ((draw?_eq_some_iff hn).mp h).1
  have hlt : w.toNat * n.toNat < 2 ^ 32 * n.toNat :=
    Nat.mul_lt_mul_of_pos_right w.toNat_lt (toNat_pos hn)
  rw [UInt32.lt_iff_toNat_lt]
  omega

end Windows

/-! ### The words -/

/-- There are finitely many words. -/
noncomputable instance fintypeWord : Fintype UInt32 :=
  .ofEquiv (Fin UInt32.size) ⟨UInt32.ofFin, UInt32.toFin, fun _ => rfl, fun _ => rfl⟩

lemma card_words : Fintype.card UInt32 = 2 ^ 32 :=
  (Fintype.ofEquiv_card _).trans (Fintype.card_fin _)

/-- The words that draw a number. -/
noncomputable def drawing (n d : UInt32) : Finset UInt32 :=
  Finset.univ.filter fun w => draw? n w = some d

/-- The words that draw nothing. -/
noncomputable def rejected (n : UInt32) : Finset UInt32 :=
  Finset.univ.filter fun w => draw? n w = none

/-- The words that draw something. -/
noncomputable def accepted (n : UInt32) : Finset UInt32 :=
  Finset.univ.filter fun w => (draw? n w).isSome = true

/-- The words that give a call the high priority. -/
noncomputable def urgent (n : UInt32) : Finset UInt32 :=
  Finset.univ.filter fun w => (draw? n w).map flagsOf = some Flags.urgent

section Words

variable {n : UInt32}

lemma toNat_injective : Function.Injective UInt32.toNat := fun _ _ => UInt32.toNat_inj.mp

/-- A window of length `n * k` holds `k` multiples of `n`, wherever it begins. -/
lemma multiple_mem_window_iff {n : ℕ} (hn : 0 < n) (start k m : ℕ) :
    (start ≤ m * n ∧ m * n < start + n * k) ↔ m ∈ Finset.Ico (start ⌈/⌉ n) (start ⌈/⌉ n + k) := by
  have hend : (start + n * k) ⌈/⌉ n = start ⌈/⌉ n + k := by
    rw [Nat.ceilDiv_eq_add_pred_div, Nat.ceilDiv_eq_add_pred_div, ← Nat.add_mul_div_left _ _ hn]
    congr 1
    omega
  rw [Finset.mem_Ico, ← hend, ← not_le, ← not_le, ceilDiv_le_iff_le_mul hn,
    ceilDiv_le_iff_le_mul hn, Nat.mul_comm m n]

/-- **Each number below `n` is drawn by equally many words.** -/
lemma card_drawing {d : UInt32} (hd : d < n) : (drawing n d).card = share n := by
  have hpos : 0 < n.toNat := Nat.zero_lt_of_lt (UInt32.lt_iff_toNat_lt.mp hd)
  have hn : n ≠ 0 := fun h => by simp [h] at hpos
  have himage : (drawing n d).image UInt32.toNat =
      Finset.Ico (d.toNat * 2 ^ 32 ⌈/⌉ n.toNat) (d.toNat * 2 ^ 32 ⌈/⌉ n.toNat + share n) := by
    ext m
    rw [← multiple_mem_window_iff hpos, Finset.mem_image]
    constructor
    · rintro ⟨w, hw, rfl⟩
      exact (draw?_eq_some_iff hn).mp (Finset.mem_filter.mp hw).2
    · rintro ⟨hlow, hhigh⟩
      -- the last window ends before the products of the words do
      have hroom := (window_bounds hn).2
      have hbelow := UInt32.lt_iff_toNat_lt.mp hd
      have hword : m < UInt32.size :=
        Nat.lt_of_mul_lt_mul_right (a := n.toNat)
          (calc
            m * n.toNat < (d.toNat + 1) * UInt32.size := by
              rw [show UInt32.size = 2 ^ 32 from rfl]
              omega
            _ ≤ n.toNat * UInt32.size := Nat.mul_le_mul_right _ hbelow
            _ = UInt32.size * n.toNat := Nat.mul_comm _ _)
      have hof : (UInt32.ofNat m).toNat = m := UInt32.toNat_ofNat_of_lt' hword
      refine ⟨UInt32.ofNat m, Finset.mem_filter.mpr ⟨Finset.mem_univ _, ?_⟩, hof⟩
      rw [draw?_eq_some_iff hn, hof]
      exact ⟨hlow, hhigh⟩
  rw [← Finset.card_image_of_injective _ toNat_injective, himage, Nat.card_Ico,
    Nat.add_sub_cancel_left]

lemma card_below (n : UInt32) : (Finset.univ.filter fun d => d < n).card = n.toNat := by
  have himage : (Finset.univ.filter fun d => d < n).image UInt32.toNat = Finset.range n.toNat := by
    ext m
    rw [Finset.mem_image, Finset.mem_range]
    constructor
    · rintro ⟨d, hd, rfl⟩
      exact UInt32.lt_iff_toNat_lt.mp (Finset.mem_filter.mp hd).2
    · intro hm
      have hof : (UInt32.ofNat m).toNat = m := UInt32.toNat_ofNat_of_lt' (hm.trans n.toNat_lt)
      refine ⟨UInt32.ofNat m, Finset.mem_filter.mpr ⟨Finset.mem_univ _, ?_⟩, hof⟩
      rwa [UInt32.lt_iff_toNat_lt, hof]
  rw [← Finset.card_image_of_injective _ toNat_injective, himage, Finset.card_range]

/-- The numbers below `n` have their share each. -/
lemma card_accepted (hn : n ≠ 0) : (accepted n).card = n.toNat * share n := by
  have hunion : accepted n = (Finset.univ.filter fun d => d < n).biUnion (drawing n) := by
    ext w
    simp only [accepted, drawing, Finset.mem_filter, Finset.mem_univ, true_and, Finset.mem_biUnion,
      Option.isSome_iff_exists]
    exact ⟨fun ⟨d, hd⟩ => ⟨d, lt_of_draw? hn hd, hd⟩, fun ⟨d, _, hd⟩ => ⟨d, hd⟩⟩
  -- a word draws one number at most
  have hdisjoint : ∀ d ∈ Finset.univ.filter (fun d => d < n),
      ∀ d' ∈ Finset.univ.filter (fun d => d < n), d ≠ d' →
        Disjoint (drawing n d) (drawing n d') := by
    intro d _ d' _ hne
    rw [Finset.disjoint_left]
    intro w hw hw'
    have heq := (Finset.mem_filter.mp hw).2.symm.trans (Finset.mem_filter.mp hw').2
    exact hne (Option.some.inj heq)
  rw [hunion, Finset.card_biUnion hdisjoint,
    Finset.sum_congr rfl fun d hd => card_drawing (Finset.mem_filter.mp hd).2, Finset.sum_const,
    card_below, smul_eq_mul]

/-- All other words are rejected. -/
lemma card_rejected (n : UInt32) : (rejected n).card + (accepted n).card = 2 ^ 32 := by
  have hcomplement : accepted n = Finset.univ.filter fun w => ¬ draw? n w = none := by
    simp only [accepted, ← ne_eq, Option.ne_none_iff_isSome]
  rw [rejected, hcomplement, Finset.card_filter_add_card_filter_not, Finset.card_univ, card_words]

/-- The words for the high priority are those that draw zero. -/
lemma urgent_eq (n : UInt32) : urgent n = drawing n 0 := by
  have hflags (d : UInt32) : flagsOf d = Flags.urgent ↔ d = 0 := by
    rw [flagsOf]
    split
    · simp [*]
    · simp [*, Flags.none, Flags.urgent]
  ext w
  simp only [urgent, drawing, Finset.mem_filter, Finset.mem_univ, true_and, Option.map_eq_some_iff,
    hflags]
  constructor
  · rintro ⟨d, hd, rfl⟩
    exact hd
  · exact fun h => ⟨0, h, rfl⟩

end Words

end Draw

/-- The generator after so many words. -/
def Generator.after (g : Generator) (k : ℕ) : Generator :=
  (fun g => g.next.2)^[k] g

namespace Draw

/-! ### The draws of a generator -/

section Generators

variable {n : UInt32} {g : Generator} {fuel : ℕ}

/-- The first word that is not rejected decides, and the generator has given no word after it. -/
lemma search_eq {k : ℕ} {d : UInt32} (hrejected : ∀ j < k, draw? n (g.after j).next.1 = none)
    (hdraw : draw? n (g.after k).next.1 = some d) (hk : k < fuel) :
    search n fuel g = (d, g.after (k + 1)) := by
  -- each rejected word uses up one unit of fuel and one place in the row
  induction fuel generalizing g k with
  | zero => exact absurd hk (Nat.not_lt_zero k)
  | succ fuel ih =>
      rw [search]
      cases k with
      | zero =>
          have hfirst : draw? n g.next.1 = some d := hdraw
          rw [hfirst]
          rfl
      | succ k =>
          have hfirst : draw? n g.next.1 = none := hrejected 0 k.succ_pos
          rw [hfirst]
          exact ih (fun j hj => hrejected (j + 1) (Nat.succ_lt_succ hj)) hdraw
            (Nat.lt_of_succ_lt_succ hk)

/-- Whatever the words are, the draw is below the number of sides. -/
lemma search_lt (hn : n ≠ 0) : (search n fuel g).1 < n := by
  induction fuel generalizing g with
  | zero =>
      rw [search, UInt32.lt_iff_toNat_lt]
      exact toNat_pos hn
  | succ fuel ih =>
      rw [search]
      split
      · rename_i d hdraw
        exact lt_of_draw? hn hdraw
      · exact ih

end Generators

/-- What it means that draws below `n` are fair. -/
structure Fair (n : UInt32) : Prop where
  /-- The zeros before the highest bit of `n` are the places by which it can be moved up. -/
  zeros : 2 ^ 31 ≤ n.toNat * 2 ^ leadingZeros n ∧ n.toNat * 2 ^ leadingZeros n < 2 ^ 32
  /-- Each number below `n` is drawn by equally many words. -/
  drawn : ∀ d < n, (drawing n d).card = 2 ^ leadingZeros n
  /-- Nothing else is drawn. -/
  bounded : ∀ w d, draw? n w = some d → d < n
  /-- All other words are rejected, and they are half of all words at most. -/
  rejected : (rejected n).card = 2 ^ 32 - n.toNat * 2 ^ leadingZeros n ∧
    2 * (rejected n).card ≤ 2 ^ 32
  /-- One accepted word in `n` gives the high priority. -/
  urgent : n.toNat * (urgent n).card = (accepted n).card
  /-- A generator draws by the first of its words that is not rejected. -/
  first : ∀ (g : Generator) (k : ℕ) (d : UInt32), k < period →
    (∀ j < k, draw? n (g.after j).next.1 = none) → draw? n (g.after k).next.1 = some d →
      below n g = (d, g.after (k + 1))
  /-- Whatever its words are, the draw is below `n`. -/
  below : ∀ g, (below n g).1 < n

lemma fair_of_ne_zero {n : UInt32} (hn : n ≠ 0) : Fair n := by
  have hbounds := window_bounds hn
  have haccepted := card_accepted hn
  have hrejected := card_rejected n
  have hzero : 0 < n := by
    rw [UInt32.lt_iff_toNat_lt]
    exact toNat_pos hn
  refine ⟨hbounds, fun d hd => card_drawing hd, fun w d h => lt_of_draw? hn h, ⟨?_, ?_⟩, ?_,
    fun g k d hk hrej hdraw => search_eq hrej hdraw hk, fun g => search_lt hn⟩
  · rw [show 2 ^ leadingZeros n = share n from rfl, ← haccepted]
    omega
  · omega
  · rw [urgent_eq, card_drawing hzero, haccepted]

lemma sides_ne_zero (odds : UInt32) : sides odds ≠ 0 := by
  rw [sides]
  split
  · decide
  · assumption

lemma toNat_sides (odds : UInt32) : (sides odds).toNat = max odds.toNat 1 := by
  rw [sides]
  split
  · rename_i hzero
    rw [hzero]
    rfl
  · rename_i hne
    have hpos := toNat_pos hne
    omega

/-- **The odds of a plan are exact.** Draws with as many sides as the odds say, and with one side
where they say zero, are fair: each side comes up by equally many words, and one accepted word in so
many gives a call the high priority. There is always a side to draw, so that no draw fails, and a
worker issues its call with the flags of the draw. -/
theorem odds_exact (odds : UInt32) :
    (sides odds).toNat = max odds.toNat 1 ∧ Fair (sides odds) ∧
      (∀ count g, sequence? (sides odds) count g = .ok (sequence (sides odds) count g)) ∧
      ∀ (p : Plan) (w : Worker) (k now : ℕ), p.highPriorityOdds = odds → w.stage = .cleared k →
        (w.issue p now).1.stage = .calling k (flagsOf (below (sides odds) w.generator).1) now ∧
          (w.issue p now).1.generator = (below (sides odds) w.generator).2 := by
  refine ⟨toNat_sides odds, fair_of_ne_zero (sides_ne_zero odds), fun count g => ?_, ?_⟩
  · rw [sequence?, decide_eq_false (sides_ne_zero odds), Bool.false_and, if_neg Bool.false_ne_true]
  · rintro p w k now rfl hs
    simp only [Worker.issue, hs]
    exact ⟨trivial, trivial⟩

/-- Odds of one in ten: the first word is rejected, the second one draws zero. -/
theorem odds_exact_at_ten :
    let g : Generator := ⟨Key.ofSeed 7, 0, [4294967295, 0, 5]⟩
    let p : Plan := ({} : Config).plan
    let w : Worker := { Worker.launch p (fun _ => g) 0 with stage := .cleared 1, generator := g }
    p.highPriorityOdds = 10 ∧ w.stage = .cleared 1 ∧ 3 < sides 10 ∧
      (drawing (sides 10) 3).card = 2 ^ 28 ∧ draw? (sides 10) 4294967295 = none ∧
      draw? (sides 10) 0 = some 0 ∧ below (sides 10) g = (0, ⟨Key.ofSeed 7, 0, [5]⟩) ∧
      (w.issue p 0).1.stage = .calling 1 Flags.urgent 0 := by
  intro g p w
  obtain ⟨-, hfair, -, hissue⟩ := odds_exact 10
  have hbelow : below (sides 10) g = (0, ⟨Key.ofSeed 7, 0, [5]⟩) :=
    hfair.first g 1 0 (by decide) (fun j hj => by
      obtain rfl : j = 0 := by omega
      decide) (by decide)
  have hstage := (hissue p w 1 0 rfl rfl).1
  rw [show w.generator = g from rfl, hbelow] at hstage
  exact ⟨rfl, rfl, by decide, hfair.drawn 3 (by decide), by decide, by decide, hbelow, hstage⟩

end Draw

end StoreSoak
