import StoreSoak.Proofs.Json.Writing
import StoreSoak.Report.Document

/-!
The document of a report is a document.

A report holds a ratio besides counts, durations and texts. However a ratio is laid out, with its
point inside its digits, in front of them or behind them, or with an exponent, it is a number.

* `Ratio.Layout.chars_lexeme`: the characters of a ratio are those of a number, in every layout.
* `Report.fieldNames`, `Report.values`: the names and values of the fields of a report.
  `Report.recordWith_proper`: whatever stands for the ratio, their record has a text.
* `Report.document_reads`: its document spells the report and nothing else.
-/

namespace StoreSoak

namespace Json

/-! ### Rows of digits -/

/-- Digits that do not begin with a zero. -/
structure Leading (s : List Char) : Prop where
  digits : Digits s
  head : ∃ c t, s = c :: t ∧ c ≠ '0'

lemma Digits.append {s t : List Char} (hs : Digits s) (ht : ∀ c ∈ t, c.isDigit = true) :
    Digits (s ++ t) :=
  ⟨List.append_ne_nil_of_left_ne_nil hs.ne_nil t,
    fun c hc => (List.mem_append.mp hc).elim (hs.isDigit c) (ht c)⟩

lemma isDigit_of_mem_zeros {n : ℕ} {c : Char} (hc : c ∈ List.replicate n '0') :
    c.isDigit = true := by
  rw [List.eq_of_mem_replicate hc]
  rfl

/-- A zero alone is a row of digits. -/
lemma zero_digits : Digits ['0'] :=
  ⟨nofun, fun _ => isDigit_of_mem_zeros (n := 1)⟩

lemma decimal_leading {n : ℕ} (hn : 0 < n) : Leading (Text.decimal n) :=
  ⟨decimal_digits n, decimal_head hn⟩

namespace Leading

variable {s : List Char}

lemma whole (h : Leading s) : Whole s := by
  obtain ⟨c, t, rfl, hc⟩ := h.head
  exact .digits h.digits hc

lemma append (h : Leading s) {t : List Char} (ht : ∀ c ∈ t, c.isDigit = true) :
    Leading (s ++ t) := by
  refine ⟨h.digits.append ht, ?_⟩
  obtain ⟨c, t', rfl, hc⟩ := h.head
  exact ⟨c, t' ++ t, rfl, hc⟩

lemma take (h : Leading s) {n : ℕ} (hn : 0 < n) : Leading (s.take n) := by
  obtain ⟨c, t, rfl, hc⟩ := h.head
  have htake : (c :: t).take n = c :: t.take (n - 1) := by
    rw [← Nat.succ_pred_eq_of_pos hn]
    rfl
  refine ⟨⟨by simp [htake], fun d hd => h.digits.isDigit d (List.mem_of_mem_take hd)⟩, ?_⟩
  exact ⟨c, _, htake, hc⟩

lemma drop (h : Leading s) {n : ℕ} (hn : n < s.length) : Digits (s.drop n) :=
  ⟨by simpa using hn, fun d hd => h.digits.isDigit d (List.mem_of_mem_drop hd)⟩

end Leading

/-- The digits after the first one, behind a point, are a fraction if there are any. -/
lemma fraction_drop {s : List Char} (h : Leading s) (n : ℕ) :
    Fraction (Text.fraction (s.drop n)) := by
  rw [Text.fraction]
  split
  · exact .none
  · rename_i hne
    exact .digits (h.drop (by simpa using hne))

end Json

namespace Ratio.Layout

open Json

variable {digits : List Char}

/-- Wherever its point stands, a row of digits with a point is a number. -/
lemma positional_lexeme (h : Leading digits) (point : ℤ) : Lexeme (positional digits point) := by
  refine .plain ?_
  rw [positional]
  split
  · -- zeros between the point and the digits
    have hfraction : Digits (List.replicate (-point).toNat '0' ++ digits) :=
      ⟨List.append_ne_nil_of_right_ne_nil _ h.digits.ne_nil,
        fun c hc => (List.mem_append.mp hc).elim isDigit_of_mem_zeros (h.digits.isDigit c)⟩
    have hunsigned := Unsigned.mk .zero (.digits hfraction) .none
    rw [List.append_nil] at hunsigned
    exact hunsigned
  · rename_i hpoint
    dsimp only
    split
    · rename_i hinside
      have hbefore : Leading (digits.take point.toNat) := h.take (by omega)
      have hunsigned := Unsigned.mk hbefore.whole (.digits (h.drop hinside)) .none
      rw [List.append_nil] at hunsigned
      exact hunsigned
    · -- zeros between the digits and the point
      have hbefore : Leading (digits ++ List.replicate (point.toNat - digits.length) '0') :=
        h.append fun _ => isDigit_of_mem_zeros
      have hunsigned := Unsigned.mk hbefore.whole (.digits zero_digits) .none
      rw [List.append_nil] at hunsigned
      exact hunsigned

/-- Whatever the sign, a sign and digits behind the letter are an exponent. -/
lemma exponent_of_sign (plus : Bool) (exponent : ℤ) :
    Exponent ('e' :: (if exponent < 0 then ['-'] else if plus then ['+'] else []) ++
      Text.decimal exponent.natAbs) := by
  have hletter : IsExponent 'e' := .inl rfl
  have hdigits := decimal_digits exponent.natAbs
  split
  · exact .signed hletter (.inr rfl) hdigits
  · split
    · exact .signed hletter (.inl rfl) hdigits
    · exact .plain hletter hdigits

lemma exponential_lexeme (h : Leading digits) (plus : Bool) (exponent : ℤ) :
    Lexeme (exponential plus digits exponent) := by
  have hunsigned := Unsigned.mk (h.take Nat.one_pos).whole (fraction_drop h 1)
    (exponent_of_sign plus exponent)
  rw [exponential]
  rw [← List.append_assoc] at hunsigned
  exact .plain hunsigned

/-- **In every layout a ratio is written as a number.** -/
theorem chars_lexeme (l : Layout) (r : Ratio) : Lexeme (l.chars r) := by
  rw [chars]
  dsimp only
  split
  · exact .plain (.mk .zero (.digits zero_digits) .none)
  · rename_i hcoefficient
    have hleading := decimal_leading (Nat.pos_of_ne_zero hcoefficient)
    split
    · exact positional_lexeme hleading _
    · exact exponential_lexeme hleading _ _

end Ratio.Layout

namespace Report

open Json

/-- The names of the fields, in their order. -/
def fieldNames : List String :=
  ["workers", "completed", "cancelled", "failed", "iterations", "transactional", "direct",
    "high_priority", "high_priority_ratio", "aborted_transactions", "throttle_pauses",
    "average_latency", "max_latency", "elapsed", "pressure_chains", "pressure_executions",
    "sentinel_key", "sentinel_exists", "failures"]

/-- The values of the fields in their order, the given one for the ratio. -/
def values (ratio : Json) (r : Report) : List Json :=
  [.ofNat r.workers, .ofNat r.completed, .ofNat r.cancelled, .ofNat r.failed, .ofNat r.iterations,
    .ofNat r.transactional, .ofNat r.direct, .ofNat r.highPriority, ratio,
    .ofNat r.abortedTransactions, .ofNat r.throttlePauses, .ofDuration r.averageLatency,
    .ofDuration r.maxLatency, .ofDuration r.elapsed, .ofNat r.pressureChains,
    .ofNat r.pressureExecutions, .ofText r.sentinelKey, .ofOption .bool r.sentinelExists,
    .array (r.failures.map .ofText)]

/-- The record of a report with the given value for the ratio. -/
def recordWith (ratio : Json) (r : Report) : Json :=
  .record (fieldNames.zip (r.values ratio))

lemma toJson_eq (r : Report) :
    r.toJson = r.recordWith (.number (Ratio.Layout.documents.chars r.highPriorityRatio)) :=
  rfl

/-- All that a report holds has a text, whatever stands for its ratio. -/
lemma recordWith_proper {ratio : Json} (h : Proper ratio) (r : Report) :
    Proper (r.recordWith ratio) := by
  have hvalues : ∀ v ∈ r.values ratio, Proper v := by
    simp only [values, List.forall_mem_cons, Proper.ofNat, Proper.ofDuration, true_and,
      List.not_mem_nil, false_implies, implies_true, and_true]
    refine ⟨h, .text _, .ofOption .bool _, .array ?_⟩
    intro v hv
    obtain ⟨f, -, rfl⟩ := List.mem_map.mp hv
    exact .text f
  exact .record fun f hf => hvalues f.2 (List.of_mem_zip hf).2

lemma toJson_proper (r : Report) : Proper r.toJson := by
  rw [toJson_eq]
  exact recordWith_proper (.number (Ratio.Layout.chars_lexeme _ _)) r

lemma newLine_blank : Blanks ['\n'] := fun c hc => by
  rw [List.mem_singleton.mp hc]
  rfl

/-- **The document of a report spells the report**, with its last line ended. -/
theorem document_reads (r : Report) : Document r.toJson r.document.toList := by
  rw [document, String.toList_ofList, documentChars]
  exact .mk .nil (prettyChars_spells r.toJson_proper 0) newLine_blank

end Report

end StoreSoak
