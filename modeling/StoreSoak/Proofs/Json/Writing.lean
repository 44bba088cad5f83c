import StoreSoak.Json.Decode
import StoreSoak.Json.Printer
import StoreSoak.Proofs.Json.Reading

/-!
What the writers write is read back.

* `Proper` values are those that have a text: their numbers are numbers, and their strings and names
  have texts. All values that the library builds are of this kind.
* `compactChars_spells` and `prettyChars_spells`: both writers spell a proper value.
* `parse?_compact` and `parse?_pretty`: so both of their texts are read as that value.
-/

namespace StoreSoak.Json

/-- A value all numbers of which are numbers and all strings and names of which have texts. -/
inductive Proper : Json → Prop where
  | null : Proper .null
  | bool (b : Bool) : Proper (.bool b)
  | number {lexeme : List Char} (h : Lexeme lexeme) : Proper (.number lexeme)
  | text (s : String) : Proper (.string (some s))
  | array {vs : List Json} (h : ∀ v ∈ vs, Proper v) : Proper (.array vs)
  | object {ms : List (Option String × Json)} (hnames : ∀ m ∈ ms, ∃ name, m.1 = some name)
      (h : ∀ m ∈ ms, Proper m.2) : Proper (.object ms)

/-! ### Numbers -/

/-- A positive number begins with a digit that is no zero. -/
lemma decimal_head {n : ℕ} (hn : 0 < n) : ∃ c s, Text.decimal n = c :: s ∧ c ≠ '0' := by
  induction n using Nat.strongRecOn with
  | ind n ih =>
      rw [Text.decimal]
      by_cases hsmall : n < 10
      · rw [Nat.toDigits_of_lt_base hsmall]
        exact ⟨_, [], rfl, by rw [Ne, Nat.digitChar_eq_zero]; omega⟩
      · obtain ⟨c, s, hs, hc⟩ := ih (n / 10) (by omega) (by omega)
        rw [Text.decimal] at hs
        rw [Nat.toDigits_of_base_le (by decide) (by omega), hs]
        exact ⟨c, _, rfl, hc⟩

lemma decimal_digits (n : ℕ) : Digits (Text.decimal n) :=
  ⟨Nat.toDigits_ne_nil, fun _ hc => Nat.isDigit_of_mem_toDigits (by decide) (by decide) hc⟩

lemma decimal_whole (n : ℕ) : Whole (Text.decimal n) := by
  by_cases hn : n = 0
  · rw [hn]
    exact .zero
  · obtain ⟨c, s, hs, hc⟩ := decimal_head (Nat.pos_of_ne_zero hn)
    have hdigits := decimal_digits n
    rw [hs] at hdigits ⊢
    exact .digits hdigits hc

lemma decimal_lexeme (n : ℕ) : Lexeme (Text.decimal n) := by
  have h : Unsigned (Text.decimal n ++ [] ++ []) := .mk (decimal_whole n) .none .none
  rw [List.append_nil, List.append_nil] at h
  exact .plain h

/-! ### Strings -/

/-- A unit that is no half of a pair is a character of its own. -/
lemma assemble_unit {n : ℕ} (hhigh : isHigh n = false) (hlow : isLow n = false)
    (ps : List Piece) :
    assemble (.unit n :: ps) = (assemble ps).map (Char.ofNat n :: ·) := by
  rw [assemble.eq_def]
  split
  · rename_i heq
    cases heq
  · rename_i heq
    cases heq
  · rename_i heq
    cases heq
    simp [hhigh, hlow]
  · rename_i heq
    cases heq
    simp [hhigh, hlow]

/-- The four digits of a control character. -/
lemma padded_control : ∀ n < 32,
    Text.padded 16 4 n = ['0', '0', Nat.digitChar (n / 16), Nat.digitChar (n % 16)] ∧
      unit? '0' '0' (Nat.digitChar (n / 16)) (Nat.digitChar (n % 16)) = some n := by
  decide

/-- Every character is written so that it is read as itself. -/
lemma exists_piece (c : Char) : ∃ p,
    (∀ {ps : List Piece} {s : List Char}, Spelled ps s → Spelled (p :: ps) (escape c ++ s)) ∧
      ∀ ps, assemble (p :: ps) = (assemble ps).map (c :: ·) := by
  have hescaped {e : Char} (he : unescape? e = some c) : ∃ p,
      (∀ {ps : List Piece} {s : List Char}, Spelled ps s →
        Spelled (p :: ps) (['\\', e] ++ s)) ∧
        ∀ ps, assemble (p :: ps) = (assemble ps).map (c :: ·) :=
    ⟨.char c, fun h => .escaped he h, fun ps => by rw [assemble]⟩
  -- the cases follow the order of the tests in `escape`
  by_cases hquote : c = '"'
  · subst hquote
    exact hescaped (by decide)
  by_cases hslash : c = '\\'
  · subst hslash
    exact hescaped (by decide)
  rw [escape, if_neg hquote, if_neg hslash]
  split
  · rename_i h
    subst h
    exact hescaped (by decide)
  split
  · rename_i h
    subst h
    exact hescaped (by decide)
  split
  · rename_i h
    subst h
    exact hescaped (by decide)
  split
  · rename_i h
    subst h
    exact hescaped (by decide)
  split
  · rename_i h
    subst h
    exact hescaped (by decide)
  split
  · rename_i hcontrol
    -- no control character is half of a surrogate pair
    obtain ⟨hpadded, hunit⟩ := padded_control c.toNat hcontrol
    have hhigh : isHigh c.toNat = false := by
      rw [isHigh, Bool.and_eq_false_iff, decide_eq_false_iff_not]
      omega
    have hlow : isLow c.toNat = false := by
      rw [isLow, Bool.and_eq_false_iff, decide_eq_false_iff_not]
      omega
    refine ⟨.unit c.toNat, fun h => by rw [hpadded]; exact .unit hunit h, fun ps => ?_⟩
    rw [assemble_unit hhigh hlow, Char.ofNat_toNat]
  · rename_i hcontrol
    refine ⟨.char c, fun h => .plain ?_ h, fun ps => by rw [assemble]⟩
    simp [isPlain, hquote, hslash, Nat.le_of_not_lt hcontrol]

lemma exists_pieces (s : List Char) : ∃ ps, Spelled ps (s.flatMap escape) ∧ assemble ps = some s := by
  induction s with
  | nil => exact ⟨[], .nil, by rw [assemble]⟩
  | cons c s ih =>
      obtain ⟨ps, hps, htext⟩ := ih
      obtain ⟨p, hp, hc⟩ := exists_piece c
      exact ⟨p :: ps, hp hps, by rw [hc, htext]; rfl⟩

/-- A text is written between quotes so that it is read as itself. -/
lemma quotedText_quotes (s : String) : Quotes (some s) (quotedText (some s)) := by
  obtain ⟨ps, hps, htext⟩ := exists_pieces s.toList
  have h := Quotes.mk hps
  rw [htext, Option.map_some, String.ofList_toList] at h
  exact h

/-! ### Values -/

lemma newLine_blanks (depth : ℕ) : Blanks (newLine depth) := by
  intro c hc
  rcases List.mem_cons.mp hc with rfl | hc
  · decide
  · rw [List.eq_of_mem_replicate hc]
    decide

lemma bool_spells (b : Bool) : Spells (.bool b) (truth b) := by
  cases b
  · exact .isFalse
  · exact .isTrue

/-- Items that are written spelled are written spelled together. -/
lemma compactItems_spells {v : Json} {vs : List Json}
    (h : ∀ w ∈ v :: vs, Spells w (compactChars w)) :
    Items (v :: vs) (compactItems (v :: vs)) := by
  have hv : Spells v (compactChars v) := h v List.mem_cons_self
  induction vs generalizing v with
  | nil =>
      rw [compactItems, ← List.append_nil (compactChars v)]
      exact .last hv .nil
  | cons w vs ih =>
      rw [compactItems]
      exact .cons hv .nil .nil
        (ih (fun u hu => h u (List.mem_cons_of_mem v hu)) (h w (by simp)))

lemma compactMember_spells (name : String) {v : Json} (h : Spells v (compactChars v)) :
    Member (some name, v) (quotedText (some name) ++ ':' :: compactChars v) :=
  .mk (quotedText_quotes name) .nil .nil h

lemma compactMembers_spells {m : Option String × Json} {ms : List (Option String × Json)}
    (hnames : ∀ n ∈ m :: ms, ∃ name, n.1 = some name)
    (h : ∀ n ∈ m :: ms, Spells n.2 (compactChars n.2)) :
    Members (m :: ms) (compactMembers (m :: ms)) := by
  have hm : Spells m.2 (compactChars m.2) := h m List.mem_cons_self
  -- the grammar has no empty row of members, so the first one stays apart
  induction ms generalizing m with
  | nil =>
      obtain ⟨name, v⟩ := m
      obtain ⟨name, rfl⟩ := hnames _ List.mem_cons_self
      rw [compactMembers, ← List.append_nil (_ ++ _)]
      exact .last (compactMember_spells name hm) .nil
  | cons w ms ih =>
      obtain ⟨name, v⟩ := m
      obtain ⟨name, rfl⟩ := hnames _ List.mem_cons_self
      have hms := ih (fun n hn => hnames n (List.mem_cons_of_mem _ hn))
        (fun n hn => h n (List.mem_cons_of_mem _ hn)) (h w (by simp))
      have hall := Members.cons (compactMember_spells name hm) .nil .nil hms
      rw [compactMembers]
      simpa using hall

/-- What is written without blanks spells the value. -/
theorem compactChars_spells {v : Json} (h : Proper v) : Spells v (compactChars v) := by
  induction h with
  | null =>
      rw [compactChars]
      exact .null
  | bool b =>
      rw [compactChars]
      exact bool_spells b
  | number h =>
      rw [compactChars]
      exact .number h
  | text s =>
      rw [compactChars]
      exact .string (quotedText_quotes s)
  | @array vs h ih =>
      rw [compactChars]
      cases vs with
      | nil => exact .emptyArray .nil
      | cons v vs => exact .array .nil (compactItems_spells ih)
  | @object ms hnames h ih =>
      rw [compactChars]
      cases ms with
      | nil => exact .emptyObject .nil
      | cons m ms => exact .object .nil (compactMembers_spells hnames ih)

/-- Items on lines of their own: blanks, and what spells the items. -/
lemma prettyItems_spells {depth : ℕ} {v : Json} {vs : List Json}
    (h : ∀ w ∈ v :: vs, Spells w (prettyChars depth w)) {b : List Char} (hb : Blanks b) :
    ∃ s, Items (v :: vs) s ∧ prettyItems depth (v :: vs) ++ b = newLine depth ++ s := by
  have hv : Spells v (prettyChars depth v) := h v List.mem_cons_self
  induction vs generalizing v with
  | nil =>
      refine ⟨_, .last hv hb, ?_⟩
      rw [prettyItems, List.append_assoc]
  | cons w vs ih =>
      obtain ⟨s, hs, htext⟩ := ih (fun u hu => h u (List.mem_cons_of_mem v hu)) (h w (by simp))
      refine ⟨_, .cons hv .nil (newLine_blanks depth) hs, ?_⟩
      rw [prettyItems, ← htext]
      simp

lemma prettyMember_spells {depth : ℕ} (name : String) {v : Json}
    (h : Spells v (prettyChars depth v)) :
    Member (some name, v) (quotedText (some name) ++ ':' :: ' ' :: prettyChars depth v) := by
  have hblank : Blanks [' '] := fun c hc => by
    rw [List.mem_singleton.mp hc]
    decide
  exact .mk (quotedText_quotes name) .nil hblank h

lemma prettyMembers_spells {depth : ℕ} {m : Option String × Json}
    {ms : List (Option String × Json)} (hnames : ∀ n ∈ m :: ms, ∃ name, n.1 = some name)
    (h : ∀ n ∈ m :: ms, Spells n.2 (prettyChars depth n.2)) {b : List Char} (hb : Blanks b) :
    ∃ s, Members (m :: ms) s ∧ prettyMembers depth (m :: ms) ++ b = newLine depth ++ s := by
  have hm : Spells m.2 (prettyChars depth m.2) := h m List.mem_cons_self
  -- the blanks at the end of the text belong to the last member of the grammar
  induction ms generalizing m with
  | nil =>
      obtain ⟨name, v⟩ := m
      obtain ⟨name, rfl⟩ := hnames _ List.mem_cons_self
      refine ⟨_, .last (prettyMember_spells name hm) hb, ?_⟩
      rw [prettyMembers]
      simp
  | cons w ms ih =>
      obtain ⟨name, v⟩ := m
      obtain ⟨name, rfl⟩ := hnames _ List.mem_cons_self
      obtain ⟨s, hs, htext⟩ := ih (fun n hn => hnames n (List.mem_cons_of_mem _ hn))
        (fun n hn => h n (List.mem_cons_of_mem _ hn)) (h w (by simp))
      refine ⟨_, .cons (prettyMember_spells name hm) .nil (newLine_blanks depth) hs, ?_⟩
      rw [prettyMembers, List.nil_append, ← htext]
      simp

/-- What is written on lines of its own spells the value, at any depth. -/
theorem prettyChars_spells {v : Json} (h : Proper v) (depth : ℕ) :
    Spells v (prettyChars depth v) := by
  induction h generalizing depth with
  | null =>
      rw [prettyChars]
      exact .null
  | bool b =>
      rw [prettyChars]
      exact bool_spells b
  | number h =>
      rw [prettyChars]
      exact .number h
  | text s =>
      rw [prettyChars]
      exact .string (quotedText_quotes s)
  | @array vs h ih =>
      cases vs with
      | nil =>
          rw [prettyChars]
          exact .emptyArray .nil
      | cons v vs =>
          obtain ⟨s, hs, htext⟩ := prettyItems_spells (fun w hw => ih w hw (depth + 1))
            (newLine_blanks depth)
          rw [prettyChars, htext, List.append_assoc]
          exact .array (newLine_blanks (depth + 1)) hs
  | @object ms hnames h ih =>
      cases ms with
      | nil =>
          rw [prettyChars]
          exact .emptyObject .nil
      | cons m ms =>
          obtain ⟨s, hs, htext⟩ := prettyMembers_spells hnames (fun n hn => ih n hn (depth + 1))
            (newLine_blanks depth)
          rw [prettyChars, htext, List.append_assoc]
          exact .object (newLine_blanks (depth + 1)) hs

lemma document_of_spells {v : Json} {s : List Char} (h : Spells v s) : Document v s := by
  have hdocument := Document.mk .nil h .nil
  rw [List.append_nil] at hdocument
  exact hdocument

/-- **What is written without blanks is read back.** -/
theorem parse?_compact {v : Json} (h : Proper v) : parse? v.compact = some v := by
  rw [parse?_eq_some_iff, compact, String.toList_ofList]
  exact document_of_spells (compactChars_spells h)

/-- **What is written on lines of its own is read back.** -/
theorem parse?_pretty {v : Json} (h : Proper v) : parse? v.pretty = some v := by
  rw [parse?_eq_some_iff, pretty, String.toList_ofList]
  exact document_of_spells (prettyChars_spells h 0)

/-! ### The values of the library -/

lemma Proper.ofNat (n : ℕ) : Proper (.ofNat n) :=
  .number (decimal_lexeme n)

lemma Proper.ofOption {α : Type} {f : α → Json} (h : ∀ a, Proper (f a)) (o : Option α) :
    Proper (.ofOption f o) := by
  cases o with
  | none => exact .null
  | some a => exact h a

lemma Proper.record {fields : List (String × Json)} (h : ∀ f ∈ fields, Proper f.2) :
    Proper (.record fields) := by
  refine .object ?_ ?_ <;> intro m hm <;> obtain ⟨f, hf, rfl⟩ := List.mem_map.mp hm
  · exact ⟨f.1, rfl⟩
  · exact h f hf

lemma Proper.ofDuration (d : Duration) : Proper (.ofDuration d) :=
  .record (by simp [Proper.ofNat])

end StoreSoak.Json
