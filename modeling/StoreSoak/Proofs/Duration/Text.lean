import StoreSoak.Duration.Text
import StoreSoak.Proofs.Text.Digits

/-!
The text of a duration tells the duration.

The number ends where the sign of the unit begins, and the whole units end at the point. The fraction
has as many places as the unit, so the zeros that are cut at its end are known
(`textIn_inj`, `textChars_inj`).
-/

namespace StoreSoak.Duration

open Text

variable {u v : Unit} {m n : ℕ} {d e : Duration}

lemma size_pos (u : Unit) : 0 < u.size := by
  cases u <;> decide

/-- What stands in front of the sign of a unit. -/
def isNumeral (c : Char) : Bool :=
  c.isDigit || c == '.'

lemma sign_stopped (u : Unit) : Stopped isNumeral u.sign := by
  cases u <;> exact .cons rfl _

lemma sign_inj (h : u.sign = v.sign) : u = v := by
  cases u <;> cases v <;> first | rfl | exact absurd h (by decide)

/-! ### Fractions -/

lemma isDigit_of_mem_fractionDigits {c : Char} (hc : c ∈ fractionDigits u n) :
    c.isDigit = true := by
  rw [fractionDigits] at hc
  split at hc
  · exact absurd hc List.not_mem_nil
  · exact isDigit_of_mem_padded (mem_of_mem_withoutTrailingZeros hc)

lemma fraction_inj {s t : List Char} (h : fraction s = fraction t) : s = t := by
  cases s <;> cases t <;> simp_all [fraction]

lemma fraction_stopped (s : List Char) : Stopped Char.isDigit (fraction s) := by
  cases s with
  | nil => exact .nil
  | cons c s => exact .cons rfl _

lemma isNumeral_of_mem_fraction {c : Char} (hc : c ∈ fraction (fractionDigits u n)) :
    isNumeral c = true := by
  rw [fraction] at hc
  split at hc
  · exact absurd hc List.not_mem_nil
  · rcases List.mem_cons.mp hc with rfl | hc
    · rfl
    · rw [isNumeral, isDigit_of_mem_fractionDigits hc, Bool.true_or]

/-- What is left of a unit can be read off its fraction digits. -/
lemma fractionDigits_inj (h : fractionDigits u m = fractionDigits u n) :
    m % u.size = n % u.size := by
  rw [fractionDigits, fractionDigits] at h
  split at h
  · rename_i hplaces
    have hsize : u.size = 1 := congrArg (Nat.pow 10) hplaces
    rw [hsize, Nat.mod_one, Nat.mod_one]
  · rename_i hplaces
    have hlength (k : ℕ) : (padded 10 u.places (k % u.size)).length = u.places :=
      length_padded (Nat.pos_of_ne_zero hplaces) (Nat.mod_lt k (size_pos u))
    exact padded_inj (withoutTrailingZeros_inj ((hlength m).trans (hlength n).symm) h)

/-! ### Durations -/

/-- A unit and the number of nanoseconds can be read off the text. -/
lemma textIn_inj (h : textIn u m = textIn v n) : u = v ∧ m = n := by
  have hnumeral {u : Unit} {n : ℕ} :
      ∀ c ∈ decimal (n / u.size) ++ fraction (fractionDigits u n), isNumeral c = true := by
    intro c hc
    rcases List.mem_append.mp hc with hc | hc
    · rw [isNumeral, isDigit_of_mem_decimal hc, Bool.true_or]
    · exact isNumeral_of_mem_fraction hc
  -- the unit begins where the numeral stops, the fraction where the digits do
  obtain ⟨hnumber, hsign⟩ :=
    append_inj_of_stop hnumeral hnumeral (sign_stopped u) (sign_stopped v) h
  obtain rfl := sign_inj hsign
  obtain ⟨hwhole, hfraction⟩ := append_inj_of_stop (fun _ => isDigit_of_mem_decimal)
    (fun _ => isDigit_of_mem_decimal) (fraction_stopped _) (fraction_stopped _) hnumber
  refine ⟨rfl, ?_⟩
  calc m = u.size * (m / u.size) + m % u.size := (Nat.div_add_mod m u.size).symm
    _ = u.size * (n / u.size) + n % u.size := by
      rw [decimal_inj.mp hwhole, fractionDigits_inj (fraction_inj hfraction)]
    _ = n := Nat.div_add_mod n u.size

/-- A duration can be read off its text. -/
@[simp] lemma textChars_inj : d.textChars = e.textChars ↔ d = e :=
  ⟨fun h => Duration.ext (textIn_inj h).2, fun h => h ▸ rfl⟩

lemma newline_not_mem_textChars (d : Duration) : '\n' ∉ d.textChars := by
  intro hc
  rcases List.mem_append.mp hc with hc | hc
  · rcases List.mem_append.mp hc with hc | hc
    · exact absurd (isDigit_of_mem_decimal hc) (by decide)
    · exact absurd (isNumeral_of_mem_fraction hc) (by decide)
  · have hsign : ∀ u : Unit, '\n' ∉ u.sign := fun u => by cases u <;> decide
    exact hsign _ hc

end StoreSoak.Duration
