import StoreSoak.Proofs.CommandLine.Range
import StoreSoak.Proofs.Text.Numeral

/-!
Choices written as words, and the words read back.

A choice is one word: the name after two dashes, and the value of an option after an equals sign. No
name holds an equals sign, so the value begins after the first one and may hold whatever it likes.

* `Choice.word` writes a choice, and `Choice.read_text` reads its value back.
* `Progress.step_word`: a word is read as the choice that it writes.
* `parse_words`: a line of such words is accepted exactly if no name is given twice.
* `nodup_of_parse`: no line that is accepted gives a name twice, in whatever form.
-/

namespace StoreSoak.CommandLine

namespace Choice

/-- The value of an option as it is written; nothing for a switch. -/
def text : Choice → String
  | .address s => s
  | .backend .remote => "redis"
  | .backend .memory => "memory"
  | .syncTimeout n => toString n
  | .database i => String.ofList (Text.integer i)
  | .workers n => toString n
  | .iterations n => toString n
  | .throttleInterval n => toString n
  | .throttlePause n => toString n
  | .highPriorityOdds n => toString n.toNat
  | .seed n => toString n.toNat
  | .pressureUnits n => toString n
  | .noPressure => ""
  | .failurePolicy .abort => "abort"
  | .failurePolicy .continue => "continue"
  | .strictGuard => ""
  | .duration n => toString n
  | .noWait => ""
  | .report .text => "text"
  | .report .document => "json"
  | .workerThreads n => toString n

/-- A choice as a word. -/
def word (c : Choice) : String :=
  "--" ++ c.name.text ++ if c.name.isSwitch then "" else "=" ++ c.text

/-- A choice whose value is in the range of its option. -/
structure Writable (c : Choice) : Prop where
  inRange : c.InRange
  database : ∀ i, c = .database i → -9223372036854775808 ≤ i ∧ i < 9223372036854775808

variable {c : Choice}

lemma natural_toString {n : ℕ} (h : n < Totals.counterLimit) : natural (toString n) = .ok n := by
  rw [natural, Text.toList_toString, Text.natural?_decimal,
    if_pos (show n < 18446744073709551616 from h)]

lemma small_toString (n : UInt32) : small (toString n.toNat) = .ok n := by
  have hlt : n.toNat < 4294967296 := n.toNat_lt
  rw [small, Text.toList_toString, ← Text.integer_natCast, Text.integer?_integer,
    if_pos (by omega)]
  dsimp only
  rw [if_pos (by simpa using hlt), Int.toNat_natCast, UInt32.ofNat_toNat]

/-- The value of a choice is read back. -/
lemma read_text (h : c.Writable) : read c.name c.text = .ok c := by
  have hnatural {n : ℕ} (f : ℕ → Choice) (hn : n < Totals.counterLimit) :
      (natural (toString n)).map f = .ok (f n) := by
    rw [natural_toString hn]
    rfl
  -- a value without a number is read by evaluation, the others by their numerals
  cases c with
  | address | noPressure | strictGuard | noWait => rfl
  | backend b => cases b <;> rfl
  | failurePolicy p => cases p <;> rfl
  | report f => cases f <;> rfl
  | syncTimeout n => exact hnatural .syncTimeout h.inRange
  | workers n => exact hnatural .workers h.inRange
  | iterations n => exact hnatural .iterations h.inRange
  | throttleInterval n => exact hnatural .throttleInterval h.inRange
  | throttlePause n => exact hnatural .throttlePause h.inRange
  | pressureUnits n => exact hnatural .pressureUnits h.inRange
  | duration n => exact hnatural .duration h.inRange
  | workerThreads n => exact hnatural .workerThreads h.inRange
  | database i =>
      show (integer (String.ofList (Text.integer i))).map _ = _
      rw [integer, String.toList_ofList, Text.integer?_integer, if_pos (h.database i rfl)]
      rfl
  | highPriorityOdds n =>
      show (small (toString n.toNat)).map _ = _
      rw [small_toString]
      rfl
  | seed n =>
      show (natural (toString n.toNat)).map _ = _
      rw [natural_toString n.toNat_lt]
      exact congrArg _ (congrArg seed UInt64.ofNat_toNat)

end Choice

/-! ### Names -/

namespace Name

/-- The characters of a name are at least one, and an equals sign is none of them. -/
lemma exists_text (n : Name) : ∃ c s, n.text.toList = c :: s ∧ '=' ∉ n.text.toList := by
  cases n <;> exact ⟨_, _, rfl, by decide⟩

lemma text_ne_request (n : Name) : n.text ≠ "help" ∧ n.text ≠ "version" := by
  cases n <;> decide

end Name

namespace Progress

variable {p p' : Progress} {c : Choice}

lemma splitLong_append {s : List Char} (hs : '=' ∉ s) (v : List Char) :
    splitLong (s ++ '=' :: v) = (String.ofList s, some (String.ofList v)) := by
  have hall : ∀ c ∈ s, decide (c ≠ '=') = true := fun c hc => by
    simpa using fun h : c = '=' => hs (h ▸ hc)
  rw [splitLong, List.takeWhile_append_of_pos hall, List.dropWhile_append_of_pos hall]
  simp

lemma splitLong_of_notMem {s : List Char} (hs : '=' ∉ s) :
    splitLong s = (String.ofList s, none) := by
  have hall : ∀ c ∈ s, decide (c ≠ '=') = true := fun c hc => by
    simpa using fun h : c = '=' => hs (h ▸ hc)
  rw [splitLong, List.takeWhile_eq_self_iff.mpr hall, List.dropWhile_eq_nil_iff.mpr hall]

lemma toList_word (c : Choice) :
    c.word.toList = '-' :: '-' :: (c.name.text.toList ++
      if c.name.isSwitch then [] else '=' :: c.text.toList) := by
  unfold Choice.word
  rw [String.toList_append, String.toList_append]
  split
  · rfl
  · rw [String.toList_append]
    rfl

/-- A name that a line can give is read with what is attached to it. -/
lemma step_name (hclosed : p.closed = false) {w : String} {n : Name} {s : List Char}
    (hw : w.toList = '-' :: '-' :: (n.text.toList ++ s)) :
    p.step w = p.long (splitLong (n.text.toList ++ s)).1 (splitLong (n.text.toList ++ s)).2 := by
  obtain ⟨c, rest, hn, -⟩ := n.exists_text
  rw [hn] at hw
  rw [step, if_neg (by simp [hclosed]), hw, hn]
  rfl

/-- A switch is taken at once. -/
lemma long_switch {n : Name} (hpending : p.pending = none) (hswitch : n.isSwitch = true) :
    p.long n.text none = p.take n "" := by
  obtain ⟨hhelp, hversion⟩ := n.text_ne_request
  rw [long, if_neg (by simp [hhelp, hversion]), Name.ofText?_text]
  dsimp only
  rw [hswitch, resolve, hpending]
  rfl

/-- An option is taken at once when its value is attached to it. -/
lemma long_option {n : Name} (hpending : p.pending = none) (hswitch : n.isSwitch = false)
    (value : String) : p.long n.text (some value) = p.take n value := by
  obtain ⟨hhelp, hversion⟩ := n.text_ne_request
  rw [long, if_neg (by simp [hhelp, hversion]), Name.ofText?_text]
  dsimp only
  rw [hswitch, resolve, hpending]
  rfl

/-- A word is read as the choice that it writes. -/
lemma step_word (hclosed : p.closed = false) (hpending : p.pending = none) (c : Choice) :
    p.step c.word = p.take c.name c.text := by
  obtain ⟨-, -, -, hequals⟩ := c.name.exists_text
  rw [step_name hclosed (toList_word c)]
  cases hswitch : c.name.isSwitch with
  | true =>
      have htext : c.text = "" := by cases c <;> first | rfl | cases hswitch
      rw [if_pos rfl, List.append_nil, splitLong_of_notMem hequals, String.ofList_toList, htext]
      exact long_switch hpending hswitch
  | false =>
      rw [if_neg (by decide), splitLong_append hequals, String.ofList_toList, String.ofList_toList]
      exact long_option hpending hswitch c.text

/-- A choice is taken, unless its name was given before. -/
lemma take_text (hc : c.Writable) :
    p.take c.name c.text =
      if c.name ∈ p.given then .error .argumentConflict
      else .ok { p with arguments := p.arguments.choose c, given := c.name :: p.given } := by
  rw [take, Choice.read_text hc]
  simp only [List.contains_iff_mem]

/-- Words give their choices one after the other, each name once. -/
lemma steps_words {cs : List Choice} (hclosed : p.closed = false) (hpending : p.pending = none)
    (hgiven : p.given.Nodup) (hcs : ∀ c ∈ cs, c.Writable) :
    p.steps (cs.map Choice.word) =
      if ((cs.map Choice.name).reverse ++ p.given).Nodup then
        .ok { p with
          arguments := cs.foldl Arguments.choose p.arguments
          given := (cs.map Choice.name).reverse ++ p.given }
      else .error .argumentConflict := by
  -- the names given so far grow with the choices, so they stay general
  induction cs generalizing p with
  | nil => exact (if_pos hgiven).symm
  | cons c cs ih =>
      rw [List.forall_mem_cons] at hcs
      rw [List.map_cons, List.map_cons, List.reverse_cons, List.append_assoc,
        List.singleton_append, steps, step_word hclosed hpending, take_text hcs.1]
      by_cases hmem : c.name ∈ p.given
      · have htwice : ¬ ((cs.map Choice.name).reverse ++ c.name :: p.given).Nodup := fun h =>
          (List.nodup_cons.mp h.of_append_right).1 hmem
        rw [if_pos hmem, if_neg htwice]
      · rw [if_neg hmem]
        -- a fresh name keeps the list without repetition, and the rest decides
        exact ih hclosed hpending (hgiven.cons hmem) hcs.2

/-! ### Names that a line gives -/

/-- The name of an option or a switch that a word gives. -/
def named? (word : String) : Option Name :=
  match word.toList with
  | '-' :: '-' :: rest => Name.ofText? (splitLong rest).1
  | _ => none

/-- The names given so far, with that of an option whose value has not been looked at. -/
def claimed (p : Progress) : List Name :=
  (p.pending.map Prod.fst).toList ++ p.given

/-- What reading does to the names: those that are claimed grow, and none is given twice. -/
structure Claims (p p' : Progress) (names : List Name) : Prop where
  claimed : p'.claimed = names ++ p.claimed
  nodup : p.given.Nodup → p'.given.Nodup

lemma Claims.trans {p'' : Progress} {names names' : List Name} (h : Claims p p' names)
    (h' : Claims p' p'' names') : Claims p p'' (names' ++ names) :=
  ⟨by rw [h'.claimed, h.claimed, List.append_assoc], fun hp => h'.nodup (h.nodup hp)⟩

/-- Nothing is claimed where neither the given names nor the pending one change. -/
lemma Claims.of_eq (hgiven : p'.given = p.given)
    (hpending : p'.pending.map Prod.fst = p.pending.map Prod.fst) : Claims p p' [] :=
  ⟨by rw [Progress.claimed, Progress.claimed, hgiven, hpending, List.nil_append],
    fun hp => hgiven ▸ hp⟩

lemma take_claims {n : Name} {value : String} (hpending : p.pending = none)
    (h : p.take n value = .ok p') : Claims p p' [n] ∧ p'.pending = none := by
  rw [take] at h
  split at h
  · cases h
  · rename_i hmem
    rw [List.contains_iff_mem] at hmem
    split at h
    · cases h
    · cases h
      refine ⟨⟨?_, fun hp => hp.cons hmem⟩, hpending⟩
      rw [claimed, claimed, hpending]
      rfl

/-- The pending option is given when its value is looked at. -/
lemma resolve_claims (h : p.resolve = .ok p') : Claims p p' [] ∧ p'.pending = none := by
  rw [resolve.eq_def] at h
  split at h
  · rename_i hpending
    cases h
    exact ⟨.of_eq rfl rfl, hpending⟩
  · cases h
  · rename_i n value hpending
    obtain ⟨hclaims, hnone⟩ := take_claims (p := { p with pending := none }) rfl h
    refine ⟨⟨?_, hclaims.nodup⟩, hnone⟩
    rw [hclaims.claimed, claimed, claimed, hpending]
    rfl

lemma long_claims {name : String} {attached : Option String} (h : p.long name attached = .ok p') :
    ∃ n, Name.ofText? name = some n ∧ Claims p p' [n] := by
  rw [long] at h
  split at h
  · split at h
    · cases h
    · split at h <;> cases h
  · split at h
    · cases h
    · rename_i n hname
      refine ⟨n, hname, ?_⟩
      split at h
      · cases h
      · split at h
        · cases h
        · rename_i q hq
          -- the earlier name is claimed first, whatever becomes of the value of this one
          obtain ⟨hresolved, hpending⟩ := resolve_claims hq
          split at h
          · exact hresolved.trans (take_claims hpending h).1
          · split at h
            · exact hresolved.trans (take_claims hpending h).1
            · cases h
              refine ⟨?_, hresolved.nodup⟩
              rw [← List.append_nil [n], List.append_assoc, ← hresolved.claimed, claimed, claimed,
                hpending]
              rfl

lemma plain_claims {word : String} (h : p.plain word = .ok p') : Claims p p' [] := by
  rw [plain.eq_def] at h
  split at h
  · rename_i n hpending
    cases h
    exact .of_eq rfl (by rw [hpending]; rfl)
  · cases h

/-- A word claims the name that it gives. -/
lemma step_claims {word : String} (h : p.step word = .ok p') :
    Claims p p' (named? word).toList := by
  rw [step] at h
  split at h
  · cases h
  · split at h
    · rename_i hword
      cases h
      have hnone : named? word = none := by
        rw [named?, hword]
        rfl
      rw [hnone]
      exact .of_eq rfl rfl
    · rename_i rest _ hword
      obtain ⟨n, hn, hclaims⟩ := long_claims h
      have hname : named? word = some n := by
        rw [named?, hword]
        exact hn
      rw [hname]
      exact hclaims
    -- no option has a short form
    · exact absurd h (short_ne_ok p _)
    · rename_i hlong _
      have hnone : named? word = none := by
        rw [named?]
        split
        · rename_i rest hword
          exact absurd hword (hlong rest)
        · rfl
      rw [hnone]
      exact plain_claims h

lemma steps_claims {words : List String} (h : p.steps words = .ok p') :
    Claims p p' (words.filterMap named?).reverse := by
  induction words generalizing p with
  | nil =>
      cases h
      exact .of_eq rfl rfl
  | cons word words ih =>
      rw [steps] at h
      split at h
      · cases h
      · rename_i q hq
        have hclaims := (step_claims hq).trans (ih h)
        rw [List.filterMap_cons]
        cases hname : named? word with
        | none =>
            rw [hname, Option.toList_none, List.append_nil] at hclaims
            exact hclaims
        | some n =>
            rw [hname] at hclaims
            rw [List.reverse_cons]
            exact hclaims

end Progress

/-! ### Lines -/

/-- A line of words that each give one choice: it is accepted exactly if no name is given twice. -/
lemma parse_words {cs : List Choice} (hcs : ∀ c ∈ cs, c.Writable) :
    parse (cs.map Choice.word) =
      if (cs.map Choice.name).Nodup then .ok (cs.foldl Arguments.choose {})
      else .error .argumentConflict := by
  have hgiven : ((cs.map Choice.name).reverse ++ Progress.start.given).Nodup ↔
      (cs.map Choice.name).Nodup := by
    rw [Progress.start, List.append_nil, List.nodup_reverse]
  rw [parse, Progress.steps_words rfl rfl List.nodup_nil hcs]
  by_cases h : (cs.map Choice.name).Nodup
  · rw [if_pos (hgiven.mpr h), if_pos h]
    rfl
  · rw [if_neg fun hn => h (hgiven.mp hn), if_neg h]

/-- A line that is accepted gives no name twice, in whatever form. -/
lemma nodup_of_parse {words : List String} {a : Arguments} (h : parse words = .ok a) :
    (words.filterMap Progress.named?).Nodup := by
  rw [parse] at h
  split at h
  · cases h
  · rename_i p hp
    split at h
    · cases h
    · rename_i q hq
      obtain ⟨hresolved, hpending⟩ := Progress.resolve_claims hq
      have hclaims := (Progress.steps_claims hp).trans hresolved
      -- at the end no name waits for its value, so all that is claimed is given
      have hgiven := hclaims.claimed
      rw [Progress.claimed, hpending] at hgiven
      have hnodup : q.given.Nodup := hclaims.nodup List.nodup_nil
      rw [show q.given = (words.filterMap Progress.named?).reverse ++ [] from hgiven,
        List.append_nil, List.nodup_reverse] at hnodup
      exact hnodup

end StoreSoak.CommandLine
