import Mathlib.Data.List.TakeWhile
import StoreSoak.Proofs.Json.Grammar

/-!
The readers of blanks, numbers and strings.

Each of them takes exactly what the grammar spells: `..._append` says of a reader that it takes all
of it and leaves what follows, `..._sound` that it takes nothing else.

* `Stops` is what must follow a number for it to end there.
* `IsLead` is how a number begins.
-/

namespace StoreSoak.Json

/-! ### Blanks -/

lemma Blanks.nil : Blanks [] :=
  fun _ hc => absurd hc List.not_mem_nil

lemma Blanks.append {b b' : List Char} (hb : Blanks b) (hb' : Blanks b') : Blanks (b ++ b') :=
  fun c hc => (List.mem_append.mp hc).elim (hb c) (hb' c)

lemma skip_append {b : List Char} (hb : Blanks b) (s : List Char) : skip (b ++ s) = skip s :=
  List.dropWhile_append_of_pos hb

lemma skip_cons {c : Char} (hc : isBlank c = false) (s : List Char) : skip (c :: s) = c :: s :=
  List.dropWhile_cons_of_neg (by rw [hc]; exact Bool.false_ne_true)

/-- What is skipped are blanks. -/
lemma skip_sound (s : List Char) : ∃ b, Blanks b ∧ s = b ++ skip s :=
  ⟨s.takeWhile isBlank, fun _ hc => List.mem_takeWhile_imp hc, List.takeWhile_append_dropWhile.symm⟩

lemma expect_sound {cs s rest : List Char} (h : expect cs s = some rest) : s = cs ++ rest := by
  induction cs generalizing s with
  | nil => simpa [expect] using h
  | cons c cs ih =>
      cases s with
      | nil => cases h
      | cons d s =>
          rw [expect] at h
          split at h
          · rename_i hcd
            rw [hcd, ih h, List.cons_append]
          · cases h

/-! ### Numbers -/

/-- The text does not begin with a digit. -/
def NoDigit (s : List Char) : Prop :=
  ∀ c ∈ s.head?, c.isDigit = false

/-- The text does not continue a number. -/
def Stops (s : List Char) : Prop :=
  ∀ c ∈ s.head?, c.isDigit = false ∧ c ≠ '.' ∧ ¬ IsExponent c

lemma Stops.noDigit {s : List Char} (h : Stops s) : NoDigit s :=
  fun c hc => (h c hc).1

lemma Stops.nil : Stops [] :=
  fun _ hc => absurd hc (by simp)

lemma IsExponent.not_digit {c : Char} (h : IsExponent c) : c.isDigit = false ∧ c ≠ '.' := by
  rcases h with rfl | rfl <;> decide

lemma digits?_append {ds rest : List Char} (h : Digits ds) (hrest : NoDigit rest) :
    digits? (ds ++ rest) = some (ds, rest) := by
  have htake : rest.takeWhile Char.isDigit = [] := by
    cases rest with
    | nil => rfl
    | cons c rest => simp [hrest c rfl]
  have hdrop : rest.dropWhile Char.isDigit = rest := by
    cases rest with
    | nil => rfl
    | cons c rest => simp [hrest c rfl]
  rw [digits?, List.takeWhile_append_of_pos h.isDigit, List.dropWhile_append_of_pos h.isDigit,
    htake, hdrop, List.append_nil]
  simp [h.ne_nil]

lemma digits?_sound {s ds rest : List Char} (h : digits? s = some (ds, rest)) :
    Digits ds ∧ s = ds ++ rest := by
  rw [digits?] at h
  split at h
  · cases h
  · rename_i hne
    cases h
    refine ⟨⟨fun hnil => hne (by rw [hnil]; rfl), fun c hc => List.mem_takeWhile_imp hc⟩, ?_⟩
    exact List.takeWhile_append_dropWhile.symm

lemma whole?_append {w rest : List Char} (h : Whole w) (hrest : NoDigit rest) :
    whole? (w ++ rest) = some (w, rest) := by
  cases h with
  | zero => rfl
  | @digits c s h hc =>
      rw [whole?.eq_def]
      split
      · rename_i heq
        exact absurd (List.cons.inj heq).1 hc
      · exact digits?_append h hrest

lemma whole?_sound {s w rest : List Char} (h : whole? s = some (w, rest)) :
    Whole w ∧ s = w ++ rest := by
  rw [whole?.eq_def] at h
  split at h
  · cases h
    exact ⟨.zero, rfl⟩
  · rename_i hzero
    obtain ⟨hdigits, rfl⟩ := digits?_sound h
    cases w with
    | nil => exact absurd rfl hdigits.ne_nil
    | cons c w =>
        refine ⟨.digits hdigits ?_, rfl⟩
        rintro rfl
        exact hzero _ rfl

lemma fraction?_append {f rest : List Char} (h : Fraction f) (hdigit : NoDigit rest)
    (hpoint : ∀ c ∈ rest.head?, c ≠ '.') : fraction? (f ++ rest) = some (f, rest) := by
  cases h with
  | none =>
      rw [List.nil_append, fraction?.eq_def]
      split
      · exact absurd rfl (hpoint '.' rfl)
      · rfl
  | @digits s h =>
      rw [List.cons_append, fraction?, digits?_append h hdigit]
      rfl

lemma fraction?_sound {s f rest : List Char} (h : fraction? s = some (f, rest)) :
    Fraction f ∧ s = f ++ rest := by
  rw [fraction?.eq_def] at h
  split at h
  · rw [Option.map_eq_some_iff] at h
    obtain ⟨⟨ds, r⟩, hds, heq⟩ := h
    cases heq
    obtain ⟨hdigits, rfl⟩ := digits?_sound hds
    exact ⟨.digits hdigits, rfl⟩
  · cases h
    exact ⟨.none, rfl⟩

lemma exponent?_cons {c : Char} (hc : IsExponent c) (d : Char) (s : List Char) :
    exponent? (c :: d :: s) =
      if d = '+' || d = '-' then (digits? s).map fun r => (c :: d :: r.1, r.2)
      else (digits? (d :: s)).map fun r => (c :: r.1, r.2) := by
  rw [exponent?, if_pos (by simpa [IsExponent] using hc)]

lemma exponent?_append {e rest : List Char} (h : Exponent e) (hrest : Stops rest) :
    exponent? (e ++ rest) = some (e, rest) := by
  cases h with
  | none =>
      cases rest with
      | nil => rfl
      | cons c rest =>
          have hc := (hrest c rfl).2.2
          rw [List.nil_append, exponent?.eq_def]
          simp only
          rw [if_neg (by simpa [IsExponent] using hc)]
  | @plain c s hc h =>
      cases s with
      | nil => exact absurd rfl h.ne_nil
      | cons d s =>
          have hd : d.isDigit = true := h.isDigit d List.mem_cons_self
          -- a digit is no sign, so the exponent without a sign is read as such
          have hsign : ¬ ((d = '+' || d = '-') = true) := by
            rw [Bool.or_eq_true, decide_eq_true_eq, decide_eq_true_eq]
            rintro (rfl | rfl) <;> exact absurd hd (by decide)
          have hds := digits?_append h hrest.noDigit
          rw [List.cons_append] at hds
          rw [List.cons_append, List.cons_append, exponent?_cons hc, if_neg hsign, hds]
          rfl
  | @signed c d s hc hd h =>
      rw [List.cons_append, List.cons_append, exponent?_cons hc,
        if_pos (by simpa [IsSign] using hd), digits?_append h hrest.noDigit]
      rfl

lemma exponent?_sound {s e rest : List Char} (h : exponent? s = some (e, rest)) :
    Exponent e ∧ s = e ++ rest := by
  cases s with
  | nil =>
      cases h
      exact ⟨.none, rfl⟩
  | cons c s =>
      by_cases hc : IsExponent c
      · cases s with
        | nil =>
            rw [exponent?.eq_def] at h
            simp only at h
            rw [if_pos (by simpa [IsExponent] using hc)] at h
            cases h
        | cons d s =>
            rw [exponent?_cons hc] at h
            split at h <;> rename_i hd <;> rw [Option.map_eq_some_iff] at h <;>
              obtain ⟨⟨ds, r⟩, hds, heq⟩ := h <;> cases heq <;>
              obtain ⟨hdigits, hs⟩ := digits?_sound hds
            · exact ⟨.signed hc (by simpa [IsSign] using hd) hdigits, by rw [hs]; rfl⟩
            · exact ⟨.plain hc hdigits, by rw [hs]; rfl⟩
      · rw [exponent?.eq_def] at h
        simp only at h
        rw [if_neg (by simpa [IsExponent] using hc)] at h
        cases h
        exact ⟨.none, rfl⟩

/-- What follows the whole part of a number does not begin with a digit. -/
lemma Fraction.noDigit {f s : List Char} (h : Fraction f) (hs : NoDigit s) : NoDigit (f ++ s) := by
  cases h with
  | none => exact hs
  | digits h =>
      rintro c hc
      cases hc
      decide

/-- What follows the fraction of a number begins with neither a digit nor a point. -/
lemma Exponent.head {e s : List Char} (h : Exponent e) (hs : Stops s) :
    ∀ c ∈ (e ++ s).head?, c.isDigit = false ∧ c ≠ '.' := by
  cases h with
  | none => exact fun c hc => ⟨(hs c hc).1, (hs c hc).2.1⟩
  | plain hc h =>
      rintro c heq
      cases heq
      exact hc.not_digit
  | signed hc hd h =>
      rintro c heq
      cases heq
      exact hc.not_digit

lemma unsigned?_append {u rest : List Char} (h : Unsigned u) (hrest : Stops rest) :
    unsigned? (u ++ rest) = some (u, rest) := by
  obtain ⟨hw, hf, he⟩ := h
  have hhead := he.head hrest
  have hexponent : NoDigit (_ ++ rest) := fun c hc => (hhead c hc).1
  rw [List.append_assoc, List.append_assoc, unsigned?, whole?_append hw (hf.noDigit hexponent)]
  simp only [Option.bind_eq_bind, Option.bind_some,
    fraction?_append hf hexponent fun c hc => (hhead c hc).2, exponent?_append he hrest]
  rfl

lemma unsigned?_sound {s u rest : List Char} (h : unsigned? s = some (u, rest)) :
    Unsigned u ∧ s = u ++ rest := by
  simp only [unsigned?, Option.bind_eq_bind, Option.bind_eq_some_iff] at h
  obtain ⟨⟨w, s₁⟩, hw, ⟨f, s₂⟩, hf, ⟨e, s₃⟩, he, heq⟩ := h
  cases heq
  obtain ⟨hwhole, rfl⟩ := whole?_sound hw
  obtain ⟨hfraction, rfl⟩ := fraction?_sound hf
  obtain ⟨hexponent, rfl⟩ := exponent?_sound he
  exact ⟨⟨hwhole, hfraction, hexponent⟩, by simp⟩

/-- A number begins with a digit or a sign. -/
def IsLead (c : Char) : Prop :=
  c = '-' ∨ c.isDigit = true

lemma Unsigned.head {u : List Char} (h : Unsigned u) : ∃ c s, u = c :: s ∧ c.isDigit = true := by
  obtain ⟨hw, hf, he⟩ := h
  cases hw with
  | zero => exact ⟨'0', _, rfl, by decide⟩
  | digits h hc => exact ⟨_, _, rfl, h.isDigit _ List.mem_cons_self⟩

lemma Lexeme.head {l : List Char} (h : Lexeme l) : ∃ c s, l = c :: s ∧ IsLead c := by
  cases h with
  | plain h =>
      obtain ⟨c, s, rfl, hc⟩ := h.head
      exact ⟨c, s, rfl, .inr hc⟩
  | negative h => exact ⟨'-', _, rfl, .inl rfl⟩

lemma number?_append {l rest : List Char} (h : Lexeme l) (hrest : Stops rest) :
    number? (l ++ rest) = some (l, rest) := by
  cases h with
  | plain h =>
      have hread := unsigned?_append h hrest
      obtain ⟨c, s, rfl, hc⟩ := h.head
      rw [number?.eq_def]
      split
      · rename_i heq
        rw [(List.cons.inj heq).1] at hc
        exact absurd hc (by decide)
      · exact hread
  | negative h => rw [List.cons_append, number?, unsigned?_append h hrest, Option.map_some]

lemma number?_sound {s l rest : List Char} (h : number? s = some (l, rest)) :
    Lexeme l ∧ s = l ++ rest := by
  rw [number?.eq_def] at h
  split at h
  · rw [Option.map_eq_some_iff] at h
    obtain ⟨⟨u, r⟩, hu, heq⟩ := h
    cases heq
    obtain ⟨hunsigned, rfl⟩ := unsigned?_sound hu
    exact ⟨.negative hunsigned, rfl⟩
  · obtain ⟨hunsigned, rfl⟩ := unsigned?_sound h
    exact ⟨.plain hunsigned, rfl⟩

/-! ### Strings -/

lemma pieces_append {ps : List Piece} {s : List Char} (h : Spelled ps s) (rest : List Char) :
    pieces (s ++ '"' :: rest) = some (ps, rest) := by
  induction h with
  | nil => rw [List.nil_append, pieces]
  | @plain c ps s hc h ih =>
      simp only [isPlain, Bool.and_eq_true, decide_eq_true_eq] at hc
      obtain ⟨⟨hctrl, hquote⟩, hslash⟩ := hc
      rw [List.cons_append, pieces.eq_def]
      split
      · rename_i heq
        cases heq
      · rename_i heq
        exact absurd (List.cons.inj heq).1 hquote
      · rename_i heq
        exact absurd (List.cons.inj heq).1 hslash
      · rename_i heq
        exact absurd (List.cons.inj heq).1 hslash
      · rename_i heq
        cases heq
        rw [if_neg (by simp [hslash]; omega), ih]
        rfl
  | @escaped c e ps s he h ih =>
      rw [List.cons_append, List.cons_append, pieces.eq_def]
      -- what follows a backslash here stands for one character, so it is no `u`
      have hu : e ≠ 'u' := by
        rintro rfl
        have hnone : unescape? 'u' = none := by decide
        rw [hnone] at he
        cases he
      split
      · rename_i heq
        cases heq
      · rename_i heq
        exact absurd (List.cons.inj heq).1 (by decide)
      · rename_i heq
        exact absurd (List.cons.inj (List.cons.inj heq).2).1 hu
      · rename_i heq
        cases heq
        rw [he]
        simp only [Option.bind_eq_bind, Option.bind_some, ih]
        rfl
      · rename_i hno heq
        obtain ⟨rfl, rfl⟩ := List.cons.inj heq
        exact (hno _ _ rfl rfl).elim
  | @unit a b c d n ps s hn h ih =>
      simp only [List.cons_append]
      rw [pieces, hn]
      simp only [Option.bind_eq_bind, Option.bind_some, ih]
      rfl

lemma pieces_sound {s rest : List Char} {ps : List Piece} (h : pieces s = some (ps, rest)) :
    ∃ t, Spelled ps t ∧ s = t ++ '"' :: rest := by
  fun_induction pieces s generalizing ps rest with
  | case1 => cases h
  | case2 rest' =>
      cases h
      exact ⟨[], .nil, rfl⟩
  | case3 a b c d s ih =>
      simp only [Option.bind_eq_bind, Option.bind_eq_some_iff] at h
      obtain ⟨n, hn, ⟨qs, r⟩, hqs, heq⟩ := h
      cases heq
      obtain ⟨t, ht, rfl⟩ := ih hqs
      exact ⟨_, .unit hn ht, rfl⟩
  | case4 e s hne ih =>
      simp only [Option.bind_eq_bind, Option.bind_eq_some_iff] at h
      obtain ⟨c, hc, ⟨qs, r⟩, hqs, heq⟩ := h
      cases heq
      obtain ⟨t, ht, rfl⟩ := ih hqs
      exact ⟨_, .escaped hc ht, rfl⟩
  | case5 => cases h
  | case6 c s hquote hunit hescape hplain ih =>
      simp only [Option.bind_eq_bind, Option.bind_eq_some_iff] at h
      obtain ⟨⟨qs, r⟩, hqs, heq⟩ := h
      cases heq
      obtain ⟨t, ht, rfl⟩ := ih hqs
      refine ⟨_, .plain ?_ ht, rfl⟩
      rw [Bool.or_eq_true, not_or, decide_eq_true_eq, decide_eq_true_eq] at hplain
      have hne : c ≠ '"' := hquote
      simp [isPlain, hplain.2, hne, Nat.le_of_not_lt hplain.1]

lemma stringRest_append {text : Option String} {s : List Char} (h : Quotes text ('"' :: s))
    (rest : List Char) : stringRest (s ++ rest) = some (text, rest) := by
  cases h with
  | mk h =>
      have hs := pieces_append h rest
      rw [List.append_assoc, List.singleton_append, stringRest, hs]
      rfl

lemma stringRest_sound {s rest : List Char} {text : Option String}
    (h : stringRest s = some (text, rest)) : ∃ t, Quotes text ('"' :: t) ∧ s = t ++ rest := by
  simp only [stringRest, Option.bind_eq_bind, Option.bind_eq_some_iff] at h
  obtain ⟨⟨ps, r⟩, hps, heq⟩ := h
  cases heq
  obtain ⟨t, ht, rfl⟩ := pieces_sound hps
  exact ⟨t ++ ['"'], .mk ht, by simp⟩

lemma Quotes.head {text : Option String} {s : List Char} (h : Quotes text s) :
    ∃ t, s = '"' :: t := by
  cases h
  exact ⟨_, rfl⟩

lemma string?_append {text : Option String} {s : List Char} (h : Quotes text s)
    (rest : List Char) : string? (s ++ rest) = some (text, rest) := by
  obtain ⟨t, rfl⟩ := h.head
  rw [string?, List.cons_append]
  exact stringRest_append h rest

lemma string?_sound {s rest : List Char} {text : Option String}
    (h : string? s = some (text, rest)) : ∃ t, Quotes text t ∧ s = t ++ rest := by
  simp only [string?, Option.bind_eq_bind, Option.bind_eq_some_iff] at h
  obtain ⟨r, hr, hrest⟩ := h
  obtain ⟨t, ht, rfl⟩ := stringRest_sound hrest
  exact ⟨'"' :: t, ht, (expect_sound hr).trans rfl⟩

end StoreSoak.Json
