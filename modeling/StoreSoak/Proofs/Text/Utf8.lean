import Mathlib.Tactic.Common
import StoreSoak.Text.Utf8

/-!
What is written as bytes is read back.

* `Utf8.head_encoded`: a character stands at the head of its own bytes, whatever comes after them.
* `ofUtf8_utf8`: the bytes of a text spell that text.
-/

namespace StoreSoak.Text

/-- The bytes of an array in a row. -/
lemma toList_eq_data (b : ByteArray) : b.toList = b.data.toList := by
  have hloop (i : ℕ) (r : List UInt8) :
      ByteArray.toList.loop b i r = r.reverse ++ b.data.toList.drop i := by
    fun_induction ByteArray.toList.loop b i r with
    | case1 i r hi ih =>
        have hlength : i < b.data.toList.length := hi
        have hget : b.get! i = b.data.toList[i] := by
          rw [Array.getElem_toList]
          exact getElem!_pos b.data i hi
        rw [ih, List.reverse_cons, List.append_assoc, hget,
          List.singleton_append, List.getElem_cons_drop]
    | case2 i r hi =>
        have hlength : b.data.toList.length ≤ i := Nat.le_of_not_lt hi
        rw [List.drop_eq_nil_of_le hlength, List.append_nil]
  rw [ByteArray.toList, hloop 0 []]
  rfl

/-- The bytes of a text are those of its characters. -/
lemma utf8_eq_flatMap (s : String) : utf8 s = s.toList.flatMap String.utf8EncodeChar := by
  rw [utf8, toList_eq_data, String.toUTF8_eq_toByteArray, ← String.utf8Encode_toList,
    List.utf8Encode, List.toList_data_toByteArray]

namespace Utf8

lemma toNat_ofNat_of_lt {n : ℕ} (h : n < 256) : (UInt8.ofNat n).toNat = n := by
  rw [UInt8.toNat_ofNat', Nat.mod_eq_of_lt h]

section Heads

variable {a b c d : UInt8} {x y z t : ℕ}

lemma isContinuation_of_eq (hb : b.toNat = y + 0x80) (hy : y < 64) :
    isContinuation b = true ∧ payload b = y := by
  rw [isContinuation, payload, Bool.and_eq_true, decide_eq_true_eq, decide_eq_true_eq,
    UInt8.le_iff_toNat_le, UInt8.le_iff_toNat_le, hb]
  refine ⟨⟨?_, ?_⟩, ?_⟩
  · exact Nat.le_add_left 128 y
  · exact Nat.le_of_lt_succ (Nat.add_lt_add_right hy 128)
  · omega

lemma head_one (ha : a.toNat = x) (hx : x < 0x80) (rest : List UInt8) :
    head a rest = .char (Char.ofNat x) rest := by
  rw [head, if_pos (by rw [UInt8.le_iff_toNat_le, ha]; exact Nat.le_of_lt_succ hx), ha]

lemma head_two (ha : a.toNat = x + 0xc0) (hx : 2 ≤ x ∧ x < 0x20) (hb : b.toNat = y + 0x80)
    (hy : y < 64) (rest : List UInt8) :
    head a (b :: rest) = .char (Char.ofNat (x * 64 + y)) rest := by
  obtain ⟨hcont, hpayload⟩ := isContinuation_of_eq hb hy
  have hlead : a.toNat % 32 = x := by omega
  have hone : ¬ a ≤ 127 := by simp [UInt8.le_iff_toNat_le, ha]
  have htwo : (194 ≤ a && a ≤ 223) = true := by simp [UInt8.le_iff_toNat_le, ha]; omega
  rw [head, if_neg hone, if_pos htwo, headTwo, if_pos hcont, hlead, hpayload]

lemma head_three (ha : a.toNat = x + 0xe0) (hx : x < 0x10) (hb : b.toNat = y + 0x80) (hy : y < 64)
    (hc : c.toNat = z + 0x80) (hz : z < 64) (hshort : x = 0 → 0x20 ≤ y)
    (hsurrogate : x = 0xd → y < 0x20) (rest : List UInt8) :
    head a (b :: c :: rest) = .char (Char.ofNat ((x * 64 + y) * 64 + z)) rest := by
  obtain ⟨hcont, hpayload⟩ := isContinuation_of_eq hb hy
  obtain ⟨hcont', hpayload'⟩ := isContinuation_of_eq hc hz
  have hlead : a.toNat % 16 = x := by omega
  have hone : ¬ a ≤ 127 := by simp [UInt8.le_iff_toNat_le, ha]
  have htwo : ¬ (194 ≤ a && a ≤ 223) = true := by simp [UInt8.le_iff_toNat_le, ha]
  have hthree : (224 ≤ a && a ≤ 239) = true := by simp [UInt8.le_iff_toNat_le, ha]; omega
  have hmay : mayFollowThree a b = true := by
    simp [mayFollowThree, hcont, UInt8.le_iff_toNat_le, ← UInt8.toNat_inj, ha, hb]
    omega
  rw [head, if_neg hone, if_neg htwo, if_pos hthree, headThree, if_pos hmay,
    if_pos hcont', hlead, hpayload, hpayload']

lemma head_four (ha : a.toNat = x + 0xf0) (hx : x < 5) (hb : b.toNat = y + 0x80) (hy : y < 64)
    (hc : c.toNat = z + 0x80) (hz : z < 64) (hd : d.toNat = t + 0x80) (ht : t < 64)
    (hshort : x = 0 → 0x10 ≤ y) (hlast : x = 4 → y < 0x10) (rest : List UInt8) :
    head a (b :: c :: d :: rest) =
      .char (Char.ofNat (((x * 64 + y) * 64 + z) * 64 + t)) rest := by
  obtain ⟨hcont, hpayload⟩ := isContinuation_of_eq hb hy
  obtain ⟨hcont', hpayload'⟩ := isContinuation_of_eq hc hz
  obtain ⟨hcont'', hpayload''⟩ := isContinuation_of_eq hd ht
  have hlead : a.toNat % 8 = x := by omega
  -- the leading byte is none of a shorter sequence
  have hone : ¬ a ≤ 127 := by simp [UInt8.le_iff_toNat_le, ha]
  have htwo : ¬ (194 ≤ a && a ≤ 223) = true := by simp [UInt8.le_iff_toNat_le, ha]
  have hthree : ¬ (224 ≤ a && a ≤ 239) = true := by simp [UInt8.le_iff_toNat_le, ha]
  have hfour : (240 ≤ a && a ≤ 244) = true := by simp [UInt8.le_iff_toNat_le, ha]; omega
  have hmay : mayFollowFour a b = true := by
    simp [mayFollowFour, hcont, UInt8.le_iff_toNat_le, ← UInt8.toNat_inj, ha, hb]
    omega
  rw [head, if_neg hone, if_neg htwo, if_neg hthree, if_pos hfour, headFour, if_pos hmay,
    if_pos hcont', if_pos hcont'', hlead, hpayload, hpayload', hpayload'']

end Heads

/-- A character stands at the head of its own bytes. -/
lemma head_encoded (c : Char) :
    ∃ a tail, String.utf8EncodeChar c = a :: tail ∧
      ∀ rest, head a (tail ++ rest) = .char c rest := by
  have hchar : Char.ofNat c.val.toNat = c := Char.ofNat_toNat c
  have hscalar : c.val.toNat < 0xd800 ∨ 0xdfff < c.val.toNat ∧ c.val.toNat < 0x110000 := c.valid
  rw [String.utf8EncodeChar]
  -- the four lengths, by the size of the code point
  generalize c.val.toNat = v at hchar hscalar ⊢
  split
  · exact ⟨_, _, rfl, fun rest => by
      rw [List.nil_append, head_one (toNat_ofNat_of_lt (by omega)) (by omega), hchar]⟩
  split
  · have hlead : v / 64 % 0x20 = v / 64 := Nat.mod_eq_of_lt (by omega)
    refine ⟨_, _, rfl, fun rest => ?_⟩
    rw [List.cons_append, List.nil_append, head_two (toNat_ofNat_of_lt (by omega)) (by omega)
      (toNat_ofNat_of_lt (by omega)) (by omega), ← hchar]
    congr 2
    omega
  split
  · refine ⟨_, _, rfl, fun rest => ?_⟩
    rw [List.cons_append, List.cons_append, List.nil_append, head_three
      (toNat_ofNat_of_lt (by omega)) (by omega) (toNat_ofNat_of_lt (by omega)) (by omega)
      (toNat_ofNat_of_lt (by omega)) (by omega) (by omega) (by omega), ← hchar]
    congr 2
    omega
  · refine ⟨_, _, rfl, fun rest => ?_⟩
    rw [List.cons_append, List.cons_append, List.cons_append, List.nil_append, head_four
      (toNat_ofNat_of_lt (by omega)) (by omega) (toNat_ofNat_of_lt (by omega)) (by omega)
      (toNat_ofNat_of_lt (by omega)) (by omega) (toNat_ofNat_of_lt (by omega)) (by omega)
      (by omega) (by omega), ← hchar]
    congr 2
    omega

/-- The bytes of characters are read as these characters, given a step for each byte. -/
lemma read_flatMap (length : ℕ) (cs : List Char) {fuel : ℕ}
    (hfuel : (cs.flatMap String.utf8EncodeChar).length ≤ fuel) :
    read length fuel (cs.flatMap String.utf8EncodeChar) = .ok cs := by
  -- each character takes one unit of fuel and at least one byte
  induction cs generalizing fuel with
  | nil =>
      rw [List.flatMap_nil]
      cases fuel <;> rfl
  | cons c cs ih =>
      obtain ⟨a, tail, hbytes, hhead⟩ := head_encoded c
      rw [List.flatMap_cons, hbytes, List.cons_append] at hfuel ⊢
      rw [List.length_cons, List.length_append] at hfuel
      cases fuel with
      | zero => exact absurd hfuel (Nat.not_succ_le_zero _)
      | succ fuel =>
          rw [read, hhead]
          dsimp only
          rw [ih (by omega)]
          rfl

end Utf8

/-- **The bytes of a text spell that text.** -/
theorem ofUtf8_utf8 (s : String) : ofUtf8 (utf8 s) = .ok s := by
  rw [ofUtf8, Utf8.decode, utf8_eq_flatMap, Utf8.read_flatMap _ _ (Nat.le_refl _)]
  show Except.ok (String.ofList s.toList) = .ok s
  rw [String.ofList_toList]

end StoreSoak.Text
