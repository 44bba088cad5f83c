import Mathlib.Data.List.TakeWhile
import Mathlib.Data.Nat.Notation
import StoreSoak.Text.Basic

/-!
Digits and what they stand for.

* `append_inj_of_stop`: where a run of characters of one kind ends can be seen, so the run and what
  follows it can be told apart.
* `toDigits_injective`, `decimal_inj`: a number can be read off its digits.
* `padded_inj`, `withoutTrailingZeros_inj`: so it can when zeros stand in front of them, and when the
  zeros at the end of a row of known length are cut.
-/

namespace StoreSoak.Text

/-! ### Runs -/

section Runs

variable {α : Type} {p : α → Bool} {a b s t : List α}

/-- A list that does not begin with an element of the kind. -/
def Stopped (p : α → Bool) (s : List α) : Prop :=
  ∀ x ∈ s.head?, p x = false

lemma Stopped.nil : Stopped p [] :=
  nofun

lemma Stopped.cons {x : α} (h : p x = false) (s : List α) : Stopped p (x :: s) := fun _ hy =>
  Option.some.inj hy ▸ h

lemma Stopped.takeWhile_eq_nil (h : Stopped p s) : s.takeWhile p = [] := by
  cases s with
  | nil => rfl
  | cons x s => exact List.takeWhile_cons_of_neg (by simp [h x rfl])

/-- A run of elements of one kind and what follows it can be told apart. -/
lemma append_inj_of_stop (ha : ∀ x ∈ a, p x = true) (hb : ∀ x ∈ b, p x = true) (hs : Stopped p s)
    (ht : Stopped p t) (h : a ++ s = b ++ t) : a = b ∧ s = t := by
  have hrun : a = b := by
    have htake := congrArg (List.takeWhile p) h
    rwa [List.takeWhile_append_of_pos ha, List.takeWhile_append_of_pos hb, hs.takeWhile_eq_nil,
      ht.takeWhile_eq_nil, List.append_nil, List.append_nil] at htake
  subst hrun
  exact ⟨rfl, List.append_cancel_left h⟩

end Runs

/-! ### Numbers -/

section Numbers

variable {base m n : ℕ}

lemma digitChar_inj (hm : m < 16) (hn : n < 16) (h : m.digitChar = n.digitChar) : m = n := by
  have hall : ∀ m < 16, ∀ n < 16, Nat.digitChar m = Nat.digitChar n → m = n := by decide
  exact hall m hm n hn h

/-- The digits before the last one. -/
def leadingDigits (base n : ℕ) : List Char :=
  if n < base then [] else Nat.toDigits base (n / base)

lemma toDigits_eq_append (hbase : 1 < base) (n : ℕ) :
    Nat.toDigits base n = leadingDigits base n ++ [(n % base).digitChar] := by
  rw [Nat.toDigits_eq_if hbase, leadingDigits]
  split
  · rename_i hlt
    rw [Nat.mod_eq_of_lt hlt]
    rfl
  · rfl

/-- A number can be read off its digits. -/
lemma toDigits_injective (hbase : 1 < base) (hle : base ≤ 16) :
    Function.Injective (Nat.toDigits base) := by
  intro m
  -- all but the last digit are those of a smaller number
  induction m using Nat.strong_induction_on with
  | _ m ih =>
      intro n h
      rw [toDigits_eq_append hbase, toDigits_eq_append hbase n] at h
      obtain ⟨hleading, hlast⟩ := List.append_inj' h rfl
      have hlt (k : ℕ) : k % base < 16 :=
        Nat.lt_of_lt_of_le (Nat.mod_lt k (Nat.zero_lt_of_lt hbase)) hle
      have hmod : m % base = n % base := digitChar_inj (hlt m) (hlt n) (List.head_eq_of_cons_eq hlast)
      rw [leadingDigits, leadingDigits] at hleading
      split at hleading <;> split at hleading
      · rename_i hm hn
        rwa [Nat.mod_eq_of_lt hm, Nat.mod_eq_of_lt hn] at hmod
      · exact absurd hleading.symm Nat.toDigits_ne_nil
      · exact absurd hleading Nat.toDigits_ne_nil
      · rename_i hm hn
        have hdiv : m / base = n / base := ih _ (Nat.div_lt_self (by omega) hbase) hleading
        rw [← Nat.div_add_mod m base, hdiv, hmod, Nat.div_add_mod]

/-- The digits of a number. -/
lemma exists_digit_of_mem_toDigits (hbase : 1 < base) {c : Char} (hc : c ∈ Nat.toDigits base n) :
    ∃ k < base, c = k.digitChar := by
  induction n using Nat.strong_induction_on with
  | _ n ih =>
      rw [toDigits_eq_append hbase, List.mem_append, List.mem_singleton] at hc
      rcases hc with hc | rfl
      · rw [leadingDigits] at hc
        split at hc
        · exact absurd hc List.not_mem_nil
        · exact ih _ (Nat.div_lt_self (by omega) hbase) hc
      · exact ⟨n % base, Nat.mod_lt n (Nat.zero_lt_of_lt hbase), rfl⟩

lemma isDigit_of_mem_decimal {c : Char} (hc : c ∈ decimal n) : c.isDigit = true :=
  Nat.isDigit_of_mem_toDigits (by decide) (by decide) hc

@[simp] lemma decimal_inj : decimal m = decimal n ↔ m = n :=
  (toDigits_injective (by decide) (by decide)).eq_iff

end Numbers

/-! ### Fractions -/

section Fractions

variable {width m n : ℕ}

lemma ofDigitChars_padded (width n : ℕ) : Nat.ofDigitChars 10 (padded 10 width n) 0 = n := by
  rw [padded, Nat.ofDigitChars_append, Nat.ofDigitChars_replicate_zero, Nat.mul_zero,
    Nat.ofDigitChars_ten_toDigits]

lemma padded_inj (h : padded 10 width m = padded 10 width n) : m = n := by
  rw [← ofDigitChars_padded width m, h, ofDigitChars_padded]

lemma length_padded (hwidth : 0 < width) (hn : n < Nat.pow 10 width) :
    (padded 10 width n).length = width := by
  have hle := (Nat.length_toDigits_le_iff (by decide) hwidth).mpr hn
  rw [padded, List.length_append, List.length_replicate, Nat.sub_add_cancel hle]

lemma isDigit_of_mem_padded {c : Char} (hc : c ∈ padded 10 width n) : c.isDigit = true := by
  rcases List.mem_append.mp hc with hc | hc
  · rw [List.eq_of_mem_replicate hc]
    rfl
  · exact isDigit_of_mem_decimal hc

/-- The zeros that are cut make up the length. -/
lemma withoutTrailingZeros_append (s : List Char) : withoutTrailingZeros s ++
    List.replicate (s.length - (withoutTrailingZeros s).length) '0' = s := by
  have hzero : ∀ c ∈ s.reverse.takeWhile (· == '0'), c = '0' := fun c hc => by
    simpa using List.mem_takeWhile_imp hc
  obtain ⟨zeros, hzeros⟩ : ∃ k, s.reverse.takeWhile (· == '0') = List.replicate k '0' :=
    ⟨_, List.eq_replicate_of_mem hzero⟩
  have hsplit : withoutTrailingZeros s ++ List.replicate zeros '0' = s := by
    rw [withoutTrailingZeros, ← List.reverse_replicate, ← hzeros, ← List.reverse_append,
      List.takeWhile_append_dropWhile, List.reverse_reverse]
  have hlength := congrArg List.length hsplit
  rw [List.length_append, List.length_replicate] at hlength
  rwa [← hlength, Nat.add_sub_cancel_left]

lemma withoutTrailingZeros_inj {s t : List Char} (hlength : s.length = t.length)
    (h : withoutTrailingZeros s = withoutTrailingZeros t) : s = t := by
  rw [← withoutTrailingZeros_append s, ← withoutTrailingZeros_append t, h, hlength]

lemma mem_of_mem_withoutTrailingZeros {s : List Char} {c : Char}
    (hc : c ∈ withoutTrailingZeros s) : c ∈ s := by
  rw [← withoutTrailingZeros_append s]
  exact List.mem_append_left _ hc

end Fractions

end StoreSoak.Text
