import StoreSoak.Proofs.Text.Digits
import StoreSoak.Text.Basic

/-!
Numbers are read back from their digits.

No digit is a sign, so digits alone are read as what they stand for, and a minus in front of them is
seen.

* `natural?_decimal`: a number is read back exactly if it has 64 bits.
* `integer?_integer`: so is an integer.
* `integer?_spec`: whatever is read as an integer has 64 bits, and no slash in it.
-/

namespace StoreSoak.Text

lemma toList_toString (n : ℕ) : (toString n).toList = decimal n :=
  String.toList_ofList

lemma decimal_ne_nil (n : ℕ) : decimal n ≠ [] :=
  Nat.toDigits_ne_nil

/-- No sign stands in front of digits. -/
lemma decimal_ne_cons {n : ℕ} {c : Char} (hc : c.isDigit = false) (s : List Char) :
    decimal n ≠ c :: s := by
  intro h
  have hdigit : c.isDigit = true := isDigit_of_mem_decimal (h ▸ List.mem_cons_self)
  rw [hc] at hdigit
  cases hdigit

lemma digits?_decimal (n : ℕ) : digits? (decimal n) = some n := by
  rw [digits?, if_pos, decimal, Nat.ofDigitChars_ten_toDigits]
  rw [Bool.and_eq_true, List.all_eq_true, Bool.not_eq_true', List.isEmpty_eq_false_iff]
  exact ⟨decimal_ne_nil n, fun c hc => isDigit_of_mem_decimal hc⟩

/-- A number is read back exactly if it has 64 bits. -/
lemma natural?_decimal (n : ℕ) :
    natural? (decimal n) = if n < 18446744073709551616 then some n else none := by
  rw [natural?.eq_def]
  split
  · rename_i s hs
    exact absurd hs (decimal_ne_cons rfl s)
  · rw [digits?_decimal]
    rfl

lemma integer_natCast (n : ℕ) : integer n = decimal n := by
  rw [integer, if_neg (by omega), Int.natAbs_natCast]

/-- An integer is read back exactly if it has 64 bits. -/
lemma integer?_integer (i : ℤ) :
    integer? (integer i) =
      if -9223372036854775808 ≤ i ∧ i < 9223372036854775808 then some i else none := by
  rw [integer]
  split
  · rename_i hneg
    rw [integer?, digits?_decimal, Option.bind_some, below]
    split
    · have habs : -(i.natAbs : ℤ) = i := by omega
      rw [if_pos (by omega)]
      exact congrArg some habs
    · rw [if_neg (by omega)]
      rfl
  · rename_i hneg
    -- a numeral begins with a digit, so neither sign is read
    rw [integer?.eq_def]
    split
    · rename_i s hs
      exact absurd hs (decimal_ne_cons rfl s)
    · rename_i s hs
      exact absurd hs (decimal_ne_cons rfl s)
    · rw [digits?_decimal, Option.bind_some, below]
      split
      · have habs : (i.natAbs : ℤ) = i := by omega
        rw [if_pos (by omega)]
        exact congrArg some habs
      · rw [if_neg (by omega)]
        rfl

/-! ### What is read -/

lemma lt_of_below {limit m n : ℕ} (h : below limit m = some n) : n < limit := by
  rw [below] at h
  split at h
  · rename_i hlt
    rw [← Option.some.inj h]
    exact hlt
  · cases h

lemma mem_integer {i : ℤ} {c : Char} (hc : c ∈ integer i) : c = '-' ∨ c.isDigit = true := by
  rw [integer] at hc
  split at hc
  · exact (List.mem_cons.mp hc).imp id isDigit_of_mem_decimal
  · exact Or.inr (isDigit_of_mem_decimal hc)

lemma integer_ne_nil (i : ℤ) : integer i ≠ [] := by
  rw [integer]
  split
  · exact List.cons_ne_nil _ _
  · exact decimal_ne_nil _

/-- A character that is neither a digit nor a minus does not stand in an integer. -/
lemma notMem_integer {c : Char} (hminus : c ≠ '-') (hdigit : c.isDigit = false) (i : ℤ) :
    c ∉ integer i := by
  intro hc
  rcases mem_integer hc with rfl | h
  · exact hminus rfl
  · rw [hdigit] at h
    cases h

lemma isDigit_of_digits? {s : List Char} {n : ℕ} (h : digits? s = some n) :
    ∀ c ∈ s, c.isDigit = true := by
  rw [digits?] at h
  split at h
  · rename_i hs
    rw [Bool.and_eq_true, List.all_eq_true] at hs
    exact hs.2
  · cases h

/-- What is read as an integer is in range, and has no slash in it. -/
lemma integer?_spec {s : List Char} {i : ℤ} (h : integer? s = some i) :
    (-9223372036854775808 ≤ i ∧ i < 9223372036854775808) ∧ '/' ∉ s := by
  have hread {t : List Char} {limit : ℕ} {n : ℤ}
      (h : ((digits? t).bind (below limit) >>= fun a => pure (a : ℤ)) = some n) :
      (0 ≤ n ∧ n < limit) ∧ '/' ∉ t := by
    obtain ⟨k, hk, hn⟩ := Option.bind_eq_some_iff.mp h
    obtain ⟨m, hm, hbelow⟩ := Option.bind_eq_some_iff.mp hk
    refine ⟨?_, fun hc => absurd (isDigit_of_digits? hm _ hc) (by decide)⟩
    have hlt := lt_of_below hbelow
    cases hn
    omega
  rw [integer?.eq_def] at h
  split at h <;> obtain ⟨n, hn, rfl⟩ := Option.map_eq_some_iff.mp h <;>
    obtain ⟨hrange, hslash⟩ := hread hn
  · exact ⟨by omega, by simpa using hslash⟩
  · exact ⟨by omega, by simpa using hslash⟩
  · exact ⟨by omega, hslash⟩

end StoreSoak.Text
