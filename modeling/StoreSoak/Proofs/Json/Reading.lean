import StoreSoak.Proofs.Json.Tokens

/-!
The reader reads what the grammar spells.

A reader that is given the characters of a value, and something after them that does not continue
it, gives the value and leaves the rest; and whatever a reader takes are the characters of what it
gives. Together this is `parseChars?_eq_some_iff`: the texts that are read are the documents, and
each is read as the value that it spells.

Readers of values count their steps. A value takes no more of them than it has characters, what
stands in a container one more.
-/

namespace StoreSoak.Json

/-! ### Values -/

lemma IsLead.not_blank {c : Char} (h : IsLead c) : isBlank c = false := by
  rw [Bool.eq_false_iff]
  intro hblank
  simp only [isBlank, Bool.or_eq_true, decide_eq_true_eq] at hblank
  rcases hblank with ((rfl | rfl) | rfl) | rfl <;> exact absurd h (by unfold IsLead; decide)

/-- A value does not begin with a blank or with the end of an array. -/
lemma Spells.head {v : Json} {s : List Char} (h : Spells v s) :
    ∃ c t, s = c :: t ∧ isBlank c = false ∧ c ≠ ']' := by
  cases h with
  | number h =>
      obtain ⟨c, t, rfl, hc⟩ := h.head
      refine ⟨c, t, rfl, hc.not_blank, ?_⟩
      rintro rfl
      exact absurd hc (by unfold IsLead; decide)
  | string h =>
      obtain ⟨t, rfl⟩ := h.head
      exact ⟨'"', t, rfl, by decide, by decide⟩
  | _ => exact ⟨_, _, rfl, by decide, by decide⟩

lemma Items.head {vs : List Json} {s : List Char} (h : Items vs s) :
    ∃ c t, s = c :: t ∧ isBlank c = false ∧ c ≠ ']' := by
  cases h with
  | last h hb =>
      obtain ⟨c, t, rfl, hc⟩ := h.head
      exact ⟨c, _, rfl, hc⟩
  | cons h hb hb' ht =>
      obtain ⟨c, t, rfl, hc⟩ := h.head
      exact ⟨c, _, rfl, hc⟩

lemma Member.head {m : Option String × Json} {s : List Char} (h : Member m s) :
    ∃ t, s = '"' :: t := by
  obtain ⟨hk, hb, hb', h⟩ := h
  obtain ⟨t, rfl⟩ := hk.head
  exact ⟨_, rfl⟩

lemma Members.head {ms : List (Option String × Json)} {s : List Char} (h : Members ms s) :
    ∃ t, s = '"' :: t := by
  cases h with
  | last h hb =>
      obtain ⟨t, rfl⟩ := h.head
      exact ⟨_, rfl⟩
  | cons h hb hb' ht =>
      obtain ⟨t, rfl⟩ := h.head
      exact ⟨_, rfl⟩

lemma value_blanks {b : List Char} (hb : Blanks b) (fuel : ℕ) (s : List Char) :
    value fuel (b ++ s) = value fuel s := by
  cases fuel with
  | zero => rw [value, value]
  | succ fuel => rw [value, value, skip_append hb]

lemma items_blanks {b : List Char} (hb : Blanks b) (fuel : ℕ) (s : List Char) :
    items fuel (b ++ s) = items fuel s := by
  cases fuel with
  | zero => rw [items, items]
  | succ fuel => rw [items, items, value_blanks hb]

lemma members_blanks {b : List Char} (hb : Blanks b) (fuel : ℕ) (s : List Char) :
    members fuel (b ++ s) = members fuel s := by
  cases fuel with
  | zero => rw [members, members]
  | succ fuel => rw [members, members, skip_append hb]

/-- A value that begins like a number is read as one. -/
lemma value_of_lead {c : Char} (hc : IsLead c) (fuel : ℕ) (s : List Char) :
    value (fuel + 1) (c :: s) = (number? (c :: s)).map fun r => (.number r.1, r.2) := by
  have hlead {d : Char} (hd : ¬ IsLead d) {rest : List Char} (heq : c :: s = d :: rest) : False :=
    hd ((List.cons.inj heq).1 ▸ hc)
  rw [value, skip_cons hc.not_blank]
  split <;> rename_i heq
  · exact (hlead (by unfold IsLead; decide) heq).elim
  · exact (hlead (by unfold IsLead; decide) heq).elim
  · exact (hlead (by unfold IsLead; decide) heq).elim
  · exact (hlead (by unfold IsLead; decide) heq).elim
  · exact (hlead (by unfold IsLead; decide) heq).elim
  · exact (hlead (by unfold IsLead; decide) heq).elim
  · rfl

/-- A container that does not end at once is read item by item. -/
lemma value_array {c : Char} (hblank : isBlank c = false) (hend : c ≠ ']') {b : List Char}
    (hb : Blanks b) (fuel : ℕ) (s : List Char) :
    value (fuel + 1) ('[' :: (b ++ c :: s)) =
      (items fuel (c :: s)).map fun r => (.array r.1, r.2) := by
  rw [value, skip_cons (by decide)]
  simp only [skip_append hb, skip_cons hblank]
  split
  · rename_i heq
    exact absurd (List.cons.inj heq).1 hend
  · rfl

lemma value_object {c : Char} (hblank : isBlank c = false) (hend : c ≠ '\x7d') {b : List Char}
    (hb : Blanks b) (fuel : ℕ) (s : List Char) :
    value (fuel + 1) ('\x7b' :: (b ++ c :: s)) =
      (members fuel (c :: s)).map fun r => (.object r.1, r.2) := by
  rw [value, skip_cons (by decide)]
  simp only [skip_append hb, skip_cons hblank]
  split
  · rename_i heq
    exact absurd (List.cons.inj heq).1 hend
  · rfl

/-- A member of an object, and the rest. -/
def member (fuel : ℕ) (s : List Char) : Option ((Option String × Json) × List Char) := do
  let (name, s) ← string? (skip s)
  let s ← expect [':'] (skip s)
  let (v, s) ← value fuel s
  return ((name, v), s)

lemma members_succ (fuel : ℕ) (s : List Char) :
    members (fuel + 1) s =
      (member fuel s).bind fun r =>
        match skip r.2 with
        | '\x7d' :: rest => some ([r.1], rest)
        | ',' :: rest => (members fuel rest).map fun q => (r.1 :: q.1, q.2)
        | _ => none := by
  rw [members, member]
  cases string? (skip s) with
  | none => rfl
  | some r =>
      simp only [Option.bind_eq_bind, Option.bind_some]
      cases expect [':'] (skip r.2) with
      | none => rfl
      | some s =>
          simp only [Option.bind_some]
          cases value fuel s <;> rfl

/-- Blanks and the characters between the parts of a container do not continue a number. -/
lemma Stops.blanks {b rest : List Char} (hb : Blanks b) (hrest : Stops rest) :
    Stops (b ++ rest) := by
  cases b with
  | nil => exact hrest
  | cons c b =>
      rintro d heq
      cases heq
      have hblank := hb c List.mem_cons_self
      simp only [isBlank, Bool.or_eq_true, decide_eq_true_eq] at hblank
      rcases hblank with ((rfl | rfl) | rfl) | rfl <;> (unfold IsExponent; decide)

lemma Stops.cons {c : Char} (hc : c.isDigit = false ∧ c ≠ '.' ∧ ¬ IsExponent c) (s : List Char) :
    Stops (c :: s) := by
  rintro d heq
  cases heq
  exact hc

mutual

/-- A value is read to its last character. -/
theorem value_append {v : Json} {s : List Char} (h : Spells v s) {fuel : ℕ} {rest : List Char}
    (hfuel : s.length ≤ fuel) (hrest : Stops rest) :
    value fuel (s ++ rest) = some (v, rest) := by
  obtain ⟨fuel, rfl⟩ : ∃ n, fuel = n + 1 := by
    obtain ⟨c, t, rfl, -⟩ := h.head
    exact ⟨fuel - 1, by simp at hfuel; omega⟩
  -- by recursion on how the value is spelled, together with its items and members;
  -- the fuel lasts since every part is shorter than the whole
  match h with
  | .null => simp [value, skip_cons, isBlank, expect]
  | .isTrue => simp [value, skip_cons, isBlank, expect]
  | .isFalse => simp [value, skip_cons, isBlank, expect]
  | .number h =>
      have hread := number?_append h hrest
      obtain ⟨c, t, rfl, hc⟩ := h.head
      rw [List.cons_append, value_of_lead hc, ← List.cons_append, hread]
      rfl
  | .string h =>
      obtain ⟨t, rfl⟩ := h.head
      rw [List.cons_append, value, skip_cons (by decide)]
      simp only
      rw [stringRest_append h]
      rfl
  | .emptyArray hb =>
      rw [List.cons_append, value, skip_cons (by decide), List.append_assoc, List.cons_append]
      simp [skip_append hb, skip_cons, isBlank]
  | .emptyObject hb =>
      rw [List.cons_append, value, skip_cons (by decide), List.append_assoc, List.cons_append]
      simp [skip_append hb, skip_cons, isBlank]
  | .array hb h =>
      have hread := @items_append _ _ h fuel rest
        (by simp only [List.length_cons, List.length_append] at hfuel; omega)
      obtain ⟨c, t, rfl, hblank, hend⟩ := h.head
      simp only [List.cons_append, List.append_assoc, List.nil_append] at hread ⊢
      rw [value_array hblank hend hb, hread]
      rfl
  | .object hb h =>
      have hread := @members_append _ _ h fuel rest
        (by simp only [List.length_cons, List.length_append] at hfuel; omega)
      obtain ⟨t, rfl⟩ := h.head
      simp only [List.cons_append, List.append_assoc, List.nil_append] at hread ⊢
      rw [value_object (by decide) (by decide) hb, hread]
      rfl

/-- The values of an array are read up to its closing bracket. -/
theorem items_append {vs : List Json} {s : List Char} (h : Items vs s) {fuel : ℕ}
    {rest : List Char} (hfuel : s.length + 1 ≤ fuel) :
    items fuel (s ++ ']' :: rest) = some (vs, rest) := by
  obtain ⟨fuel, rfl⟩ : ∃ n, fuel = n + 1 := ⟨fuel - 1, by omega⟩
  match h with
  | .last (b := b) h hb =>
      have hstops : Stops (b ++ ']' :: rest) :=
        .blanks hb (.cons (by unfold IsExponent; decide) rest)
      have hread := @value_append _ _ h fuel _
        (by simp only [List.length_append] at hfuel; omega) hstops
      rw [List.append_assoc, items, hread]
      simp [skip_append hb, skip_cons, isBlank]
  | @Items.cons _ _ _ b b' t h hb hb' ht =>
      have hstops : Stops (b ++ ',' :: (b' ++ (t ++ ']' :: rest))) :=
        .blanks hb (.cons (by unfold IsExponent; decide) _)
      have hread := @value_append _ _ h fuel _
        (by simp only [List.length_append] at hfuel; omega) hstops
      have hmore := @items_append _ _ ht fuel rest
        (by simp only [List.length_append, List.length_cons] at hfuel; omega)
      simp only [List.append_assoc, List.cons_append]
      rw [items, hread]
      simp [skip_append hb, skip_cons, isBlank, items_blanks hb', hmore]

/-- A member is read to the last character of its value. -/
theorem member_append {m : Option String × Json} {s : List Char} (h : Member m s) {fuel : ℕ}
    {rest : List Char} (hfuel : s.length ≤ fuel) (hrest : Stops rest) :
    member fuel (s ++ rest) = some (m, rest) := by
  match h with
  | .mk (s := s) hk hb hb' h =>
      have hread := @value_append _ _ h fuel _
        (by simp only [List.length_append, List.length_cons] at hfuel; omega) hrest
      have hname := string?_append hk
      obtain ⟨t, rfl⟩ := hk.head
      simp only [List.append_assoc, List.cons_append] at hname ⊢
      rw [member, skip_cons (by decide), hname]
      simp [skip_append hb, skip_cons, isBlank, expect, value_blanks hb', hread]

/-- The members of an object are read up to its closing brace. -/
theorem members_append {ms : List (Option String × Json)} {s : List Char} (h : Members ms s)
    {fuel : ℕ} {rest : List Char} (hfuel : s.length + 1 ≤ fuel) :
    members fuel (s ++ '\x7d' :: rest) = some (ms, rest) := by
  obtain ⟨fuel, rfl⟩ : ∃ n, fuel = n + 1 := ⟨fuel - 1, by omega⟩
  match h with
  | .last (b := b) h hb =>
      have hstops : Stops (b ++ '\x7d' :: rest) :=
        .blanks hb (.cons (by unfold IsExponent; decide) rest)
      have hread := @member_append _ _ h fuel _
        (by simp only [List.length_append] at hfuel; omega) hstops
      rw [List.append_assoc, members_succ, hread]
      simp [skip_append hb, skip_cons, isBlank]
  | @Members.cons _ _ _ b b' t h hb hb' ht =>
      have hstops : Stops (b ++ ',' :: (b' ++ (t ++ '\x7d' :: rest))) :=
        .blanks hb (.cons (by unfold IsExponent; decide) _)
      have hread := @member_append _ _ h fuel _
        (by simp only [List.length_append] at hfuel; omega) hstops
      have hmore := @members_append _ _ ht fuel rest
        (by simp only [List.length_append, List.length_cons] at hfuel; omega)
      simp only [List.append_assoc, List.cons_append]
      rw [members_succ, hread]
      simp [skip_append hb, skip_cons, isBlank, members_blanks hb', hmore]

end

/-- What a reader of values takes are the characters of what it gives. -/
structure Sound (fuel : ℕ) : Prop where
  value : ∀ {s : List Char} {v : Json} {rest : List Char}, value fuel s = some (v, rest) →
    ∃ b t, Blanks b ∧ Spells v t ∧ s = b ++ (t ++ rest)
  items : ∀ {s : List Char} {vs : List Json} {rest : List Char},
    items fuel s = some (vs, rest) →
      ∃ b t, Blanks b ∧ Items vs t ∧ s = b ++ (t ++ ']' :: rest)
  members : ∀ {s : List Char} {ms : List (Option String × Json)} {rest : List Char},
    members fuel s = some (ms, rest) →
      ∃ b t, Blanks b ∧ Members ms t ∧ s = b ++ (t ++ '\x7d' :: rest)

/-- A word that stands for one value, read after its first character. -/
lemma word_sound {w v : Json} {c : Char} {word r rest : List Char} (hw : Spells w (c :: word))
    (h : (expect word r).map (fun r' => (w, r')) = some (v, rest)) :
    ∃ t, Spells v t ∧ c :: r = t ++ rest := by
  rw [Option.map_eq_some_iff] at h
  obtain ⟨r', hr, hv⟩ := h
  cases hv
  exact ⟨_, hw, by rw [expect_sound hr]; rfl⟩

/-- An array is read after its bracket. -/
lemma Sound.array {fuel : ℕ} (h : Sound fuel) {s r : List Char} {v : Json} {rest : List Char}
    (hs : skip s = '[' :: r) (hread : Json.value (fuel + 1) s = some (v, rest)) :
    ∃ t, Spells v t ∧ '[' :: r = t ++ rest := by
  obtain ⟨b, hb, hr⟩ := skip_sound r
  simp only [Json.value, hs] at hread
  split at hread
  · rename_i r' heq
    cases hread
    exact ⟨_, .emptyArray hb, by rw [hr, heq]; simp⟩
  · rw [Option.map_eq_some_iff] at hread
    obtain ⟨⟨vs, r'⟩, hvs, hv⟩ := hread
    cases hv
    -- what is skipped here the reader of the items does not see again
    obtain ⟨b', t, hb', ht, htext⟩ := h.items hvs
    exact ⟨_, .array (hb.append hb') ht, by rw [hr, htext]; simp⟩

/-- An object is read after its brace. -/
lemma Sound.object {fuel : ℕ} (h : Sound fuel) {s r : List Char} {v : Json} {rest : List Char}
    (hs : skip s = '\x7b' :: r) (hread : Json.value (fuel + 1) s = some (v, rest)) :
    ∃ t, Spells v t ∧ '\x7b' :: r = t ++ rest := by
  obtain ⟨b, hb, hr⟩ := skip_sound r
  simp only [Json.value, hs] at hread
  split at hread
  · rename_i r' heq
    cases hread
    exact ⟨_, .emptyObject hb, by rw [hr, heq]; simp⟩
  · rw [Option.map_eq_some_iff] at hread
    obtain ⟨⟨ms, r'⟩, hms, hv⟩ := hread
    cases hv
    obtain ⟨b', t, hb', ht, htext⟩ := h.members hms
    exact ⟨_, .object (hb.append hb') ht, by rw [hr, htext]; simp⟩

lemma Sound.value_succ {fuel : ℕ} (h : Sound fuel) {s : List Char} {v : Json} {rest : List Char}
    (hread : Json.value (fuel + 1) s = some (v, rest)) :
    ∃ b t, Blanks b ∧ Spells v t ∧ s = b ++ (t ++ rest) := by
  obtain ⟨b, hb, hs⟩ := skip_sound s
  -- the leading blanks are skipped once, before the first character decides
  suffices hspells : ∃ t, Spells v t ∧ skip s = t ++ rest by
    obtain ⟨t, ht, htext⟩ := hspells
    exact ⟨b, t, hb, ht, by rw [← htext]; exact hs⟩
  have hvalue := hread
  rw [Json.value] at hread
  split at hread
  · rename_i r heq
    rw [heq]
    exact word_sound .null hread
  · rename_i r heq
    rw [heq]
    exact word_sound .isTrue hread
  · rename_i r heq
    rw [heq]
    exact word_sound .isFalse hread
  · rename_i r heq
    rw [Option.map_eq_some_iff] at hread
    obtain ⟨⟨text, r'⟩, hr, hv⟩ := hread
    cases hv
    obtain ⟨t, ht, rfl⟩ := stringRest_sound hr
    exact ⟨_, .string ht, heq⟩
  · rename_i r heq
    rw [heq]
    exact h.array heq hvalue
  · rename_i r heq
    rw [heq]
    exact h.object heq hvalue
  · rw [Option.map_eq_some_iff] at hread
    obtain ⟨⟨l, r'⟩, hl, hv⟩ := hread
    cases hv
    obtain ⟨hlexeme, htext⟩ := number?_sound hl
    exact ⟨l, .number hlexeme, htext⟩

lemma Sound.items_succ {fuel : ℕ} (h : Sound fuel) {s : List Char} {vs : List Json}
    {rest : List Char} (hread : Json.items (fuel + 1) s = some (vs, rest)) :
    ∃ b t, Blanks b ∧ Items vs t ∧ s = b ++ (t ++ ']' :: rest) := by
  rw [Json.items, Option.bind_eq_bind, Option.bind_eq_some_iff] at hread
  obtain ⟨⟨v, r⟩, hv, hread⟩ := hread
  obtain ⟨b, t, hb, ht, rfl⟩ := h.value hv
  obtain ⟨b', hb', hr⟩ := skip_sound r
  dsimp only at hread
  split at hread
  · rename_i r' heq
    cases hread
    exact ⟨b, _, hb, .last ht hb', by rw [hr, heq]; simp⟩
  · rename_i r' heq
    rw [Option.map_eq_some_iff] at hread
    obtain ⟨⟨ws, r''⟩, hws, hv'⟩ := hread
    cases hv'
    obtain ⟨b'', t', hb'', ht', rfl⟩ := h.items hws
    exact ⟨b, _, hb, .cons ht hb' hb'' ht', by rw [hr, heq]; simp⟩
  · cases hread

lemma Sound.member {fuel : ℕ} (h : Sound fuel) {s : List Char} {m : Option String × Json}
    {rest : List Char} (hread : Json.member fuel s = some (m, rest)) :
    ∃ b t, Blanks b ∧ Member m t ∧ s = b ++ (t ++ rest) := by
  simp only [Json.member, Option.bind_eq_bind, Option.bind_eq_some_iff] at hread
  obtain ⟨⟨name, r⟩, hname, r', hcolon, ⟨v, r''⟩, hv, heq⟩ := hread
  cases heq
  obtain ⟨b, hb, hs⟩ := skip_sound s
  obtain ⟨k, hk, hskip⟩ := string?_sound hname
  obtain ⟨b', hb', hr⟩ := skip_sound r
  obtain ⟨b'', t, hb'', ht, rfl⟩ := h.value hv
  refine ⟨b, _, hb, .mk hk hb' hb'' ht, ?_⟩
  rw [hs, hskip, hr, expect_sound hcolon]
  simp

lemma Sound.members_succ {fuel : ℕ} (h : Sound fuel) {s : List Char}
    {ms : List (Option String × Json)} {rest : List Char}
    (hread : Json.members (fuel + 1) s = some (ms, rest)) :
    ∃ b t, Blanks b ∧ Members ms t ∧ s = b ++ (t ++ '\x7d' :: rest) := by
  rw [Json.members_succ, Option.bind_eq_some_iff] at hread
  obtain ⟨⟨m, r⟩, hm, hread⟩ := hread
  obtain ⟨b, t, hb, ht, rfl⟩ := h.member hm
  obtain ⟨b', hb', hr⟩ := skip_sound r
  dsimp only at hread
  split at hread
  · rename_i r' heq
    cases hread
    exact ⟨b, _, hb, .last ht hb', by rw [hr, heq]; simp⟩
  · rename_i r' heq
    rw [Option.map_eq_some_iff] at hread
    obtain ⟨⟨ms', r''⟩, hms, hm'⟩ := hread
    cases hm'
    obtain ⟨b'', t', hb'', ht', rfl⟩ := h.members hms
    exact ⟨b, _, hb, .cons ht hb' hb'' ht', by rw [hr, heq]; simp⟩
  · cases hread

theorem sound (fuel : ℕ) : Sound fuel := by
  induction fuel with
  | zero => exact ⟨nofun, nofun, nofun⟩
  | succ fuel ih => exact ⟨ih.value_succ, ih.items_succ, ih.members_succ⟩

/-! ### Documents -/

/-- **The texts that are read are the documents**, and each is read as the value that it spells. -/
theorem parseChars?_eq_some_iff {s : List Char} {v : Json} :
    parseChars? s = some v ↔ Document v s := by
  rw [parseChars?, Option.bind_eq_bind, Option.bind_eq_some_iff]
  constructor
  · rintro ⟨⟨w, rest⟩, hread, hrest⟩
    obtain ⟨b, t, hb, ht, rfl⟩ := (sound _).value hread
    obtain ⟨b', hb', hskip⟩ := skip_sound rest
    dsimp only at hrest
    split at hrest
    · rename_i hempty
      cases hrest
      rw [List.isEmpty_iff] at hempty
      rw [hempty, List.append_nil] at hskip
      exact .mk hb ht (hskip ▸ hb')
    · cases hrest
  · rintro ⟨hb, ht, hb'⟩
    rename_i b t b'
    -- one unit of fuel for each character is enough
    have hread := @value_append _ _ ht ((b ++ (t ++ b')).length + 1) _
      (by simp only [List.length_append]; omega) (List.append_nil b' ▸ Stops.blanks hb' .nil)
    have hskip := skip_append hb' []
    rw [List.append_nil] at hskip
    refine ⟨(v, b'), by rw [value_blanks hb, hread], ?_⟩
    dsimp only
    rw [hskip]
    rfl

/-- Behind the characters of a value a document has blanks and nothing else. -/
lemma document_append_iff {v w : Json} {s rest : List Char} (h : Spells v s) (hrest : Stops rest) :
    Document w (s ++ rest) ↔ w = v ∧ Blanks rest := by
  constructor
  · intro hw
    have hread := @value_append _ _ h ((s ++ rest).length + 1) _
      (by rw [List.length_append]; omega) hrest
    rw [← parseChars?_eq_some_iff, parseChars?, hread] at hw
    simp only [Option.bind_eq_bind, Option.bind_some] at hw
    split at hw
    · rename_i hempty
      obtain ⟨b, hb, hskip⟩ := skip_sound rest
      rw [List.isEmpty_iff.mp hempty, List.append_nil] at hskip
      exact ⟨(Option.some.inj hw).symm, hskip ▸ hb⟩
    · cases hw
  · rintro ⟨rfl, hb⟩
    exact .mk .nil h hb

/-- A text is read as a value exactly if it is a document of that value. -/
lemma parse?_eq_some_iff {s : String} {v : Json} : parse? s = some v ↔ Document v s.toList :=
  parseChars?_eq_some_iff

/-- No text is a document of two values. -/
lemma Document.eq {s : List Char} {v w : Json} (hv : Document v s) (hw : Document w s) : v = w :=
  Option.some.inj
    ((parseChars?_eq_some_iff.mpr hv).symm.trans (parseChars?_eq_some_iff.mpr hw))

end StoreSoak.Json
