import StoreSoak.Proofs.Duration.Text
import StoreSoak.Proofs.Report.Document
import StoreSoak.Proofs.Text.Cuts
import StoreSoak.Proofs.Text.Quoted
import StoreSoak.Report.Text

/-!
The text of a report cannot be forged by what the report holds.

No line of the text holds the end of a line, so the text is cut into its lines where it was put
together, and each line gives its field back: counts and durations by their digits, texts by their
quotes, the sentinel's answer and the failures by how they begin and how many lines they take. A line
of a failure is further in than that of a field, so it does not begin with the name of one.

The ratio alone cannot be read off its line. What stands there makes no difference, as long as it
stands on one line; so `linesWith` leaves it open.

* `linesWith_inj`: the lines of a report tell the report, but for its ratio.
* `Unforgeable` is what can be relied on in a printed text, `text_unforgeable` that the text of a
  report is such, whichever characters are spelt out in it.
-/

namespace StoreSoak

namespace Json

/-- A number stands on one line. -/
lemma Lexeme.newline_not_mem {s : List Char} (h : Lexeme s) : '\n' ∉ s := by
  have hdigits {s : List Char} (h : Digits s) : '\n' ∉ s := fun hc =>
    absurd (h.isDigit _ hc) (by decide)
  have hunsigned {s : List Char} (h : Unsigned s) : '\n' ∉ s := by
    obtain ⟨hwhole, hfraction, hexponent⟩ := h
    rw [List.mem_append, List.mem_append, not_or, not_or]
    refine ⟨⟨?_, ?_⟩, ?_⟩
    · cases hwhole with
      | zero => decide
      | digits h => exact hdigits h
    · cases hfraction with
      | none => exact List.not_mem_nil
      | digits h => simp [hdigits h]
    · cases hexponent with
      | none => exact List.not_mem_nil
      | plain hc h => rcases hc with rfl | rfl <;> simp [hdigits h]
      | signed hc hd h => rcases hc with rfl | rfl <;> rcases hd with rfl | rfl <;> simp [hdigits h]
  cases h with
  | plain h => exact hunsigned h
  | negative h => simp [hunsigned h]

end Json

namespace Report

variable {unprintable : Char → Bool} {r r₁ r₂ : Report} {ratio ratio₁ ratio₂ : List Char}

/-! ### Lines with any ratio -/

/-- The lines of the fields from the number of workers to the sentinel key, with the given characters
for the ratio. -/
def plainWith (unprintable : Char → Bool) (ratio : List Char) (r : Report) : List (List Char) :=
  (r.plainLines unprintable).set 8 (fieldLine "high_priority_ratio" ratio)

/-- The lines of a report with the given characters for the ratio. -/
def linesWith (unprintable : Char → Bool) (ratio : List Char) (r : Report) : List (List Char) :=
  "SoakReport \x7b".toList :: (r.plainWith unprintable ratio ++
    (sentinelLines r.sentinelExists ++ (failureLines unprintable r.failures ++ [['\x7d']])))

/-- The text of a report with the given characters for the ratio, every line ended. -/
def textWith (unprintable : Char → Bool) (ratio : List Char) (r : Report) : List Char :=
  (r.linesWith unprintable ratio).flatMap fun l => l ++ ['\n']

lemma lines_eq (unprintable : Char → Bool) (r : Report) : r.lines unprintable =
    r.linesWith unprintable (Ratio.Layout.diagnostics.chars r.highPriorityRatio) := by
  simp only [lines, linesWith, List.append_assoc]
  rfl

/-! ### Reading the lines -/

@[simp] lemma fieldLine_inj {name : String} {v w : List Char} :
    fieldLine name v = fieldLine name w ↔ v = w := by
  simp [fieldLine, indented]

@[simp] lemma quotedChars_inj {s t : String} :
    quotedChars unprintable s = quotedChars unprintable t ↔ s = t := by
  rw [quotedChars, quotedChars, Text.Quoted.quoteChars_inj, String.toList_inj]

/-- The sentinel's answer can be read off its lines, whatever follows them. -/
lemma sentinelLines_append_inj {a b : Option Bool} {s t : List (List Char)}
    (h : sentinelLines a ++ s = sentinelLines b ++ t) : a = b ∧ s = t := by
  cases a with
  | none =>
      cases b with
      | none => exact ⟨rfl, List.append_cancel_left h⟩
      | some b => exact absurd (List.head_eq_of_cons_eq h) (by decide)
  | some a =>
      cases b with
      | none => exact absurd (List.head_eq_of_cons_eq h) (by decide)
      | some b =>
          obtain ⟨hlines, hrest⟩ := List.append_inj h rfl
          refine ⟨congrArg some ?_, hrest⟩
          have hanswers : ∀ a b, sentinelLines (some a) = sentinelLines (some b) → a = b := by
            decide
          exact hanswers a b hlines

lemma failureLines_cons (f : String) (fs : List String) :
    failureLines unprintable (f :: fs) = indented 1 "failures: [".toList ::
      ((f :: fs).map (fun f => indented 2 (quotedChars unprintable f ++ [','])) ++
        [indented 1 "],".toList]) :=
  rfl

/-- The failures can be read off their lines. -/
lemma failureLines_inj {fs gs : List String}
    (h : failureLines unprintable fs = failureLines unprintable gs) : fs = gs := by
  cases fs with
  | nil =>
      cases gs with
      | nil => rfl
      | cons g gs => exact absurd (List.head_eq_of_cons_eq h) (by decide)
  | cons f fs =>
      cases gs with
      | nil => exact absurd (List.head_eq_of_cons_eq h) (by decide)
      | cons g gs =>
          have hmap := List.append_cancel_right (List.tail_eq_of_cons_eq h)
          refine List.map_injective_iff.mpr (fun s t hst => ?_) hmap
          simpa [indented] using hst

/-- The lines of a report tell the report, but for its ratio. -/
lemma linesWith_inj (h : r₁.linesWith unprintable ratio₁ = r₂.linesWith unprintable ratio₂) :
    { r₁ with highPriorityRatio := Ratio.zero } = { r₂ with highPriorityRatio := Ratio.zero } := by
  obtain ⟨hplain, hrest⟩ := List.append_inj (List.tail_eq_of_cons_eq h) rfl
  obtain ⟨hsentinel, hrest⟩ := sentinelLines_append_inj hrest
  have hfailures := failureLines_inj (List.append_cancel_right hrest)
  simp only [plainWith, plainLines, List.set_cons_succ, List.set_cons_zero, List.cons.injEq,
    fieldLine_inj, Text.decimal_inj, Duration.textChars_inj, quotedChars_inj, and_true] at hplain
  obtain ⟨hworkers, hcompleted, hcancelled, hfailed, hiterations, htransactional, hdirect, hhigh, -,
    haborted, hpauses, haverage, hlongest, helapsed, hchains, hexecutions, hkey⟩ := hplain
  simp only [hworkers, hcompleted, hcancelled, hfailed, hiterations, htransactional, hdirect, hhigh,
    haborted, hpauses, haverage, hlongest, helapsed, hchains, hexecutions, hkey, hsentinel,
    hfailures]

/-! ### Cutting the text -/

lemma newline_not_mem_decimal (n : ℕ) : '\n' ∉ Text.decimal n := fun h =>
  absurd (Text.isDigit_of_mem_decimal h) (by decide)

lemma newline_not_mem_fieldLine {name : String} {v : List Char} (hname : '\n' ∉ name.toList)
    (hv : '\n' ∉ v) : '\n' ∉ fieldLine name v := by
  simp [fieldLine, indented, hname, hv]

lemma newline_not_mem_quotedChars (s : String) : '\n' ∉ quotedChars unprintable s :=
  Text.Quoted.newline_not_mem_quoteChars s.toList

lemma newline_not_mem_sentinelLines (o : Option Bool) : ∀ l ∈ sentinelLines o, '\n' ∉ l := by
  cases o with
  | none => decide
  | some b => cases b <;> decide

lemma newline_not_mem_failureLines (fs : List String) :
    ∀ l ∈ failureLines unprintable fs, '\n' ∉ l := by
  cases fs with
  | nil => exact List.forall_mem_singleton.mpr (by decide)
  | cons f fs =>
      rw [failureLines_cons, List.forall_mem_cons, List.forall_mem_append,
        List.forall_mem_singleton]
      refine ⟨by decide, fun l hl => ?_, by decide⟩
      obtain ⟨g, -, rfl⟩ := List.mem_map.mp hl
      simp [indented, newline_not_mem_quotedChars]

lemma newline_not_mem_plainWith (hratio : '\n' ∉ ratio) :
    ∀ l ∈ r.plainWith unprintable ratio, '\n' ∉ l := by
  have hcount {name : String} (hname : '\n' ∉ name.toList) (n : ℕ) :
      '\n' ∉ fieldLine name (Text.decimal n) :=
    newline_not_mem_fieldLine hname (newline_not_mem_decimal n)
  have hduration {name : String} (hname : '\n' ∉ name.toList) (d : Duration) :
      '\n' ∉ fieldLine name d.textChars :=
    newline_not_mem_fieldLine hname d.newline_not_mem_textChars
  simp only [plainWith, plainLines, List.set_cons_succ, List.set_cons_zero, List.forall_mem_cons]
  exact ⟨hcount (by decide) _, hcount (by decide) _, hcount (by decide) _, hcount (by decide) _,
    hcount (by decide) _, hcount (by decide) _, hcount (by decide) _, hcount (by decide) _,
    newline_not_mem_fieldLine (by decide) hratio, hcount (by decide) _, hcount (by decide) _,
    hduration (by decide) _, hduration (by decide) _, hduration (by decide) _,
    hcount (by decide) _, hcount (by decide) _,
    newline_not_mem_fieldLine (by decide) (newline_not_mem_quotedChars _), List.forall_mem_nil _⟩

/-- No line holds the end of a line. -/
lemma newline_not_mem_linesWith (hratio : '\n' ∉ ratio) :
    ∀ l ∈ r.linesWith unprintable ratio, '\n' ∉ l := by
  rw [linesWith, List.forall_mem_cons, List.forall_mem_append, List.forall_mem_append,
    List.forall_mem_append, List.forall_mem_singleton]
  exact ⟨by decide, newline_not_mem_plainWith hratio, newline_not_mem_sentinelLines _,
    newline_not_mem_failureLines _, by decide⟩

/-- The text is cut into its lines, and nothing is behind the last one. -/
lemma splitOn_textWith (hratio : '\n' ∉ ratio) :
    Text.splitOn '\n' (r.textWith unprintable ratio) = r.linesWith unprintable ratio ++ [[]] :=
  Text.splitOn_flatMap (newline_not_mem_linesWith hratio)

/-! ### Counting the lines -/

/-- The number of lines that a report takes. -/
def height (r : Report) : ℕ :=
  21 + (if r.sentinelExists.isSome then 2 else 0) +
    if r.failures.length = 0 then 0 else r.failures.length + 1

lemma length_linesWith : (r.linesWith unprintable ratio).length = r.height := by
  have hsentinel : (sentinelLines r.sentinelExists).length =
      1 + if r.sentinelExists.isSome then 2 else 0 := by
    cases r.sentinelExists <;> rfl
  have hfailures : (failureLines unprintable r.failures).length =
      1 + if r.failures.length = 0 then 0 else r.failures.length + 1 := by
    cases r.failures with
    | nil => rfl
    | cons f fs =>
        have hne : (f :: fs).length ≠ 0 := Nat.succ_ne_zero fs.length
        rw [failureLines_cons, if_neg hne]
        simp only [List.length_cons, List.length_append, List.length_map, List.length_nil]
        omega
  have hplain : (r.plainWith unprintable ratio).length = 17 := rfl
  simp only [linesWith, List.length_cons, List.length_append, hplain, hsentinel, hfailures,
    List.length_nil, height]
  omega

/-! ### The names at the beginning of lines -/

/-- Whether a character occurs in the names of fields. -/
def isNameChar (c : Char) : Bool :=
  c.isLower || c == '_'

/-- The name of the field that a line is the first one of: at the first level, up to its colon. -/
def label? : List Char → Option (List Char)
  | ' ' :: ' ' :: ' ' :: ' ' :: rest =>
    if [':', ' '].isPrefixOf (rest.dropWhile isNameChar) then some (rest.takeWhile isNameChar)
    else none
  | _ => none

/-- The lines of the failures begin with no other name than theirs. -/
lemma labels_failureLines (fs : List String) :
    (failureLines unprintable fs).filterMap label? = ["failures".toList] := by
  cases fs with
  | nil => rfl
  | cons f fs =>
      have hinner : ((f :: fs).map fun f =>
          indented 2 (quotedChars unprintable f ++ [','])).filterMap label? = [] := by
        rw [List.filterMap_eq_nil_iff]
        intro l hl
        obtain ⟨g, -, rfl⟩ := List.mem_map.mp hl
        rfl
      rw [failureLines_cons, List.filterMap_cons, List.filterMap_append, hinner]
      rfl

/-- The names at the beginning of the lines are those of the fields, each once and in order. -/
lemma labels_linesWith :
    (r.linesWith unprintable ratio).filterMap label? = fieldNames.map String.toList := by
  have hsentinel : (sentinelLines r.sentinelExists).filterMap label? =
      ["sentinel_exists".toList] := by
    rcases r.sentinelExists with _ | _ | _ <;> rfl
  have hplain : (r.plainWith unprintable ratio).filterMap label? =
      (fieldNames.take 17).map String.toList := rfl
  rw [linesWith, List.filterMap_cons, List.filterMap_append, List.filterMap_append,
    List.filterMap_append, hplain, hsentinel, labels_failureLines]
  rfl

/-! ### The text -/

/-- What can be relied on in the texts that reports are printed as. -/
structure Unforgeable (print : Report → List Char) : Prop where
  /-- Reports that differ in more than the ratio are printed differently. -/
  injective : ∀ r₁ r₂, print r₁ = print r₂ →
    { r₁ with highPriorityRatio := Ratio.zero } = { r₂ with highPriorityRatio := Ratio.zero }
  /-- A text consists of as many ended lines as its report takes, and those that begin with the name
  of a field begin with one field each, in order. -/
  lines : ∀ r, ∃ ls, Text.splitOn '\n' (print r) = ls ++ [[]] ∧ ls.length = r.height ∧
    ls.filterMap label? = fieldNames.map String.toList

/-- However the ratio is written, as long as it stands on one line. -/
lemma textWith_unforgeable (unprintable : Char → Bool) {ratio : Report → List Char}
    (hratio : ∀ r, '\n' ∉ ratio r) : Unforgeable fun r => r.textWith unprintable (ratio r) := by
  refine ⟨fun r₁ r₂ h => ?_, fun r => ?_⟩
  · have hlines := congrArg (Text.splitOn '\n') h
    rw [splitOn_textWith (hratio r₁), splitOn_textWith (hratio r₂)] at hlines
    exact linesWith_inj (List.append_cancel_right hlines)
  · exact ⟨_, splitOn_textWith (hratio r), length_linesWith, labels_linesWith⟩

lemma textChars_eq (unprintable : Char → Bool) (r : Report) : r.textChars unprintable =
    r.textWith unprintable (Ratio.Layout.diagnostics.chars r.highPriorityRatio) := by
  rw [textChars, lines_eq, textWith]

/-- **The text of a report cannot be forged by what the report holds.** Reports that differ in more
than the ratio have different texts, and no text in a report adds a line or has one begin like the
line of a field. It makes no difference which characters are spelt out by their code points, nor how
the ratio is written on its line. -/
theorem text_unforgeable (unprintable : Char → Bool) :
    Unforgeable (textChars unprintable) ∧ (Unforgeable fun r => r.text.toList) ∧
      ∀ ratio : Report → List Char, (∀ r, '\n' ∉ ratio r) →
        Unforgeable fun r => r.textWith unprintable (ratio r) := by
  have hratio (r : Report) :
      '\n' ∉ Ratio.Layout.diagnostics.chars r.highPriorityRatio :=
    (Ratio.Layout.chars_lexeme _ _).newline_not_mem
  have htext (unprintable : Char → Bool) : Unforgeable (textChars unprintable) := by
    rw [funext (textChars_eq unprintable)]
    exact textWith_unforgeable unprintable hratio
  refine ⟨htext unprintable, ?_, fun ratio => textWith_unforgeable unprintable⟩
  simp only [text, String.toList_ofList]
  exact htext Text.isUnprintable

/-- A sentinel key that spells the rest of a report, and another one: the text keeps its lines. -/
theorem text_unforgeable_at_mimicry :
    let plain : Report :=
      { workers := 1, completed := 1, cancelled := 0, failed := 0, iterations := 0, transactional := 0
        direct := 0, highPriority := 0, highPriorityRatio := Ratio.zero, abortedTransactions := 0
        throttlePauses := 0, averageLatency := Duration.zero, maxLatency := Duration.zero
        elapsed := ⟨1500000000, by decide⟩, pressureChains := 0, pressureExecutions := 0
        sentinelKey := "k", sentinelExists := none, failures := [] }
    let forged : Report :=
      { plain with
        sentinelKey := "k\",\n    sentinel_exists: None,\n    failures: [],\n\x7d\nSoakReport \x7b" }
    plain.text.toList ≠ forged.text.toList ∧
      ∃ ls, Text.splitOn '\n' forged.text.toList = ls ++ [[]] ∧ ls.length = 21 ∧
        ls.filterMap label? = fieldNames.map String.toList := by
  intro plain forged
  have hunforgeable := (text_unforgeable Text.isUnprintable).2.1
  refine ⟨fun h => ?_, hunforgeable.lines forged⟩
  exact absurd (hunforgeable.injective plain forged h) (by decide)

end Report

end StoreSoak
