import StoreSoak.Proofs.Text.Digits
import StoreSoak.Text.Quoted

/-!
A text in double quotes tells the text.

No spelling of a character begins another one's, and none begins with the closing quote, whichever
characters are spelt out by their code points. So the characters of a text can be read off one after
the other (`quoteChars_inj`). None of the spellings holds the end of a line
(`newline_not_mem_quoteChars`).
-/

namespace StoreSoak.Text.Quoted

variable {unprintable : Char → Bool} {c d e : Char} {s t : List Char}

/-- The letter that spells a character behind a backslash. -/
def letter? (c : Char) : Option Char :=
  if c = '"' then some '"'
  else if c = '\\' then some '\\'
  else if c = '\n' then some 'n'
  else if c = '\r' then some 'r'
  else if c = '\t' then some 't'
  else if c = '\x00' then some '0'
  else none

/-- The characters that have a letter. -/
def lettered : List Char := ['"', '\\', '\n', '\r', '\t', '\x00']

lemma mem_lettered (h : letter? c = some e) : c ∈ lettered := by
  unfold letter? at h
  split_ifs at h <;> simp_all [lettered]

lemma letter?_inj (hc : letter? c = some e) (hd : letter? d = some e) : c = d := by
  have hall : ∀ c ∈ lettered, ∀ d ∈ lettered, letter? c = letter? d → c = d := by
    simp [lettered, letter?]
  exact hall c (mem_lettered hc) d (mem_lettered hd) (hc.trans hd.symm)

/-- Neither the letter of a code point nor the end of a line is the letter of a character. -/
lemma letter?_ne (h : letter? c = some e) : e ≠ 'u' ∧ e ≠ '\n' := by
  have hall : ∀ c ∈ lettered, letter? c ≠ some 'u' ∧ letter? c ≠ some '\n' := by
    simp [lettered, letter?]
  obtain ⟨hu, hn⟩ := hall c (mem_lettered h)
  exact ⟨fun he => hu (he ▸ h), fun he => hn (he ▸ h)⟩

/-- The ways to spell a character. -/
inductive Spelling (c : Char) : List Char → Prop where
  | letter {e : Char} (h : letter? c = some e) : Spelling c ['\\', e]
  | point : Spelling c (codePoint c)
  | plain (h : letter? c = none) : Spelling c [c]

lemma escape_spelling (unprintable : Char → Bool) (c : Char) :
    Spelling c (escape unprintable c) := by
  have hescape : escape unprintable c = match letter? c with
      | some e => ['\\', e]
      | none => if unprintable c then codePoint c else [c] := by
    unfold escape letter?
    split_ifs <;> rfl
  rw [hescape]
  split
  · rename_i e h
    exact .letter h
  · rename_i h
    split
    · exact .point
    · exact .plain h

/-- A character without a letter is none of those that have one. -/
lemma ne_of_letter?_eq_none (h : letter? c = none) (hd : d ∈ lettered) : c ≠ d := by
  have hall : ∀ d ∈ lettered, letter? d ≠ none := by
    simp [lettered, letter?]
  exact fun hcd => hall d hd (hcd ▸ h)

/-! ### Reading -/

/-- The code point of a character is read up to the closing brace. -/
lemma codePoint_append_inj (h : codePoint c ++ s = codePoint d ++ t) : c = d ∧ s = t := by
  have hdigits {n : ℕ} : ∀ x ∈ Nat.toDigits 16 n, (x != '\x7d') = true := by
    intro x hx
    obtain ⟨k, hk, rfl⟩ := exists_digit_of_mem_toDigits (by decide) hx
    have hall : ∀ k < 16, (Nat.digitChar k != '\x7d') = true := by decide
    exact hall k hk
  have hbrace (s : List Char) : Stopped (· != '\x7d') ('\x7d' :: s) := .cons rfl s
  simp only [codePoint, List.cons_append, List.append_assoc, List.cons.injEq, true_and,
    List.nil_append] at h
  obtain ⟨hnumber, hrest⟩ := append_inj_of_stop hdigits hdigits (hbrace s) (hbrace t) h
  exact ⟨Char.toNat_inj.mp (toDigits_injective (by decide) (by decide) hnumber),
    List.tail_eq_of_cons_eq hrest⟩

/-- No spelling begins another one's. -/
lemma Spelling.append_inj {a b : List Char} (hc : Spelling c a) (hd : Spelling d b)
    (h : a ++ s = b ++ t) : c = d ∧ s = t := by
  have hbackslash : '\\' ∈ lettered := by decide
  -- a spelling begins with a backslash and a letter, with a code point, or with itself
  cases hc with
  | letter hc =>
      cases hd with
      | letter hd =>
          obtain ⟨rfl, rfl⟩ : _ ∧ s = t := by simpa using h
          exact ⟨letter?_inj hc hd, rfl⟩
      | point =>
          have he := (letter?_ne hc).1
          simp [codePoint, he] at h
      | plain hd =>
          have hne := ne_of_letter?_eq_none hd hbackslash
          simp [hne.symm] at h
  | point =>
      cases hd with
      | letter hd =>
          have he := (letter?_ne hd).1
          simp [codePoint, he.symm] at h
      | point => exact codePoint_append_inj h
      | plain hd =>
          have hne := ne_of_letter?_eq_none hd hbackslash
          simp [codePoint, hne.symm] at h
  | plain hc =>
      have hne := ne_of_letter?_eq_none hc hbackslash
      cases hd with
      | letter hd => simp [hne] at h
      | point => simp [codePoint, hne] at h
      | plain hd => simpa using h

/-- No spelling begins with the closing quote. -/
lemma Spelling.head_ne {a : List Char} (h : Spelling c a) : '"' :: s ≠ a ++ t := by
  cases h with
  | letter h => simp
  | point => simp [codePoint]
  | plain h => simp [(ne_of_letter?_eq_none h (by decide : '"' ∈ lettered)).symm]

/-- The characters between the quotes can be told apart from what follows. -/
lemma encode_append_inj {x y : List Char}
    (h : encode unprintable x ++ '"' :: s = encode unprintable y ++ '"' :: t) : x = y ∧ s = t := by
  have hhead (c : Char) {s t : List Char} : '"' :: s ≠ escape unprintable c ++ t :=
    (escape_spelling unprintable c).head_ne
  simp only [encode] at h
  -- by induction on the first text; the closing quote is no beginning of a spelling
  induction x generalizing y with
  | nil =>
      cases y with
      | nil => exact ⟨rfl, List.tail_eq_of_cons_eq h⟩
      | cons d y =>
          rw [List.flatMap_cons, List.append_assoc] at h
          exact absurd h (hhead d)
  | cons c x ih =>
      rw [List.flatMap_cons, List.append_assoc] at h
      cases y with
      | nil => exact absurd h.symm (hhead c)
      | cons d y =>
          rw [List.flatMap_cons, List.append_assoc] at h
          obtain ⟨rfl, htail⟩ :=
            (escape_spelling unprintable c).append_inj (escape_spelling unprintable d) h
          obtain ⟨rfl, hrest⟩ := ih htail
          exact ⟨rfl, hrest⟩

/-- A text can be read off its quotes, whichever characters are spelt out. -/
@[simp] lemma quoteChars_inj {x y : List Char} :
    quoteChars unprintable x = quoteChars unprintable y ↔ x = y := by
  refine ⟨fun h => ?_, fun h => h ▸ rfl⟩
  exact (encode_append_inj (List.tail_eq_of_cons_eq h)).1

/-! ### Ends of lines -/

lemma Spelling.newline_not_mem {a : List Char} (h : Spelling c a) : '\n' ∉ a := by
  cases h with
  | letter h => simp [(letter?_ne h).2.symm]
  | point =>
      simp only [codePoint, List.mem_cons, List.mem_append, List.not_mem_nil, or_false]
      rintro (hc | hc | hc | hc | hc)
      · exact absurd hc (by decide)
      · exact absurd hc (by decide)
      · exact absurd hc (by decide)
      · obtain ⟨k, hk, hdigit⟩ := exists_digit_of_mem_toDigits (by decide) hc
        have hall : ∀ k < 16, '\n' ≠ Nat.digitChar k := by decide
        exact hall k hk hdigit
      · exact absurd hc (by decide)
  | plain h => simp [(ne_of_letter?_eq_none h (by decide : '\n' ∈ lettered)).symm]

/-- No text between quotes holds the end of a line. -/
lemma newline_not_mem_quoteChars (s : List Char) : '\n' ∉ quoteChars unprintable s := by
  simp only [quoteChars, encode, List.mem_cons, List.mem_append, List.mem_flatMap,
    List.not_mem_nil, or_false]
  rintro (hc | ⟨c, -, hc⟩ | hc)
  · exact absurd hc (by decide)
  · exact (escape_spelling unprintable c).newline_not_mem hc
  · exact absurd hc (by decide)

end StoreSoak.Text.Quoted
