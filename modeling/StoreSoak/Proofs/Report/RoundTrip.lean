import StoreSoak.Proofs.Measure.RoundTrip
import StoreSoak.Proofs.Report.Document

/-!
The document of a report tells the report.

The document is one record with the fields in their order, and what the fields hold is read out of
it again, whatever the texts among them are. The ratio alone is passed over: it is written in
decimal, and what is read need not be exactly it.

* `ofJson?` reads a report out of a record, all but its ratio. `ofJson?_recordWith` takes every
  report back whose counts have 64 bits (`Fits`), and the reports of accounts have such counts
  (`fits_of_accounts`).
* `Tells` is what a printed text says of a report, `document_tells` that the document says it.
-/

namespace StoreSoak

namespace Json

/-- A text. -/
def text? : Json → Option String
  | .string s => s
  | _ => none

/-- A row of texts. -/
def texts? : Json → Option (List String)
  | .array items => items.mapM text?
  | _ => none

lemma texts?_map_ofText (ss : List String) : texts? (.array (ss.map .ofText)) = some ss := by
  rw [texts?]
  induction ss with
  | nil => rfl
  | cons s ss ih =>
      rw [List.map_cons, List.mapM_cons, ih]
      rfl

end Json

open Json

namespace Report

variable {r : Report}

/-! ### Reading -/

/-- A count of 64 bits. -/
def count? : Json → Option ℕ :=
  natBelow limit64

/-- A report from a record of exactly its fields. Whatever stands for the ratio is passed over, and
the ratio is left at zero. -/
def ofJson? (v : Json) : Option Report :=
  match fields fieldNames true v with
  | some [workers, completed, cancelled, failed, iterations, transactional, direct, highPriority, _,
      aborted, pauses, average, longest, elapsed, chains, executions, key, found, failures] => do
    let workers ← required count? workers
    let completed ← required count? completed
    let cancelled ← required count? cancelled
    let failed ← required count? failed
    let iterations ← required count? iterations
    let transactional ← required count? transactional
    let direct ← required count? direct
    let highPriority ← required count? highPriority
    let abortedTransactions ← required count? aborted
    let throttlePauses ← required count? pauses
    let averageLatency ← required duration average
    let maxLatency ← required duration longest
    let elapsed ← required duration elapsed
    let pressureChains ← required count? chains
    let pressureExecutions ← required count? executions
    let sentinelKey ← required text? key
    let sentinelExists ← nullable truth? found
    let failures ← required texts? failures
    return {
      workers, completed, cancelled, failed, iterations, transactional, direct, highPriority
      highPriorityRatio := Ratio.zero
      abortedTransactions, throttlePauses, averageLatency, maxLatency, elapsed, pressureChains
      pressureExecutions, sentinelKey, sentinelExists, failures }
  | _ => none

/-- The counts of a report. -/
def counts (r : Report) : List ℕ :=
  [r.workers, r.completed, r.cancelled, r.failed, r.iterations, r.transactional, r.direct,
    r.highPriority, r.abortedTransactions, r.throttlePauses, r.pressureChains, r.pressureExecutions]

/-- The counts of a report have 64 bits. -/
def Fits (r : Report) : Prop :=
  ∀ n ∈ r.counts, n < limit64

instance (r : Report) : Decidable r.Fits :=
  inferInstanceAs (Decidable (∀ n ∈ r.counts, n < limit64))

lemma fieldNames_nodup : fieldNames.Nodup := by
  decide

lemma fields_recordWith (ratio : Json) (r : Report) :
    fields fieldNames true (r.recordWith ratio) = some ((r.values ratio).map some) :=
  fields_record (fieldNames.zip (r.values ratio)) fieldNames_nodup true

lemma count?_bind {n : ℕ} (h : n < limit64) {α : Type} (f : ℕ → Option α) :
    (required count? (some (.ofNat n)) >>= f) = f n :=
  required_bind (natBelow_ofNat h) f

/-- Whatever stands for the ratio, the rest of the report is read out of the record. -/
lemma ofJson?_recordWith (hr : r.Fits) (ratio : Json) :
    ofJson? (r.recordWith ratio) = some { r with highPriorityRatio := Ratio.zero } := by
  simp only [Fits, counts, List.forall_mem_cons] at hr
  obtain ⟨hworkers, hcompleted, hcancelled, hfailed, hiterations, htransactional, hdirect, hhigh,
    haborted, hpauses, hchains, hexecutions, -⟩ := hr
  rw [ofJson?, fields_recordWith, values]
  simp only [List.map_cons, List.map_nil]
  rw [count?_bind hworkers, count?_bind hcompleted, count?_bind hcancelled, count?_bind hfailed,
    count?_bind hiterations, count?_bind htransactional, count?_bind hdirect, count?_bind hhigh,
    count?_bind haborted, count?_bind hpauses,
    required_bind (duration_ofDuration r.averageLatency),
    required_bind (duration_ofDuration r.maxLatency), required_bind (duration_ofDuration r.elapsed),
    count?_bind hchains, count?_bind hexecutions,
    required_bind (show text? (.ofText r.sentinelKey) = some r.sentinelKey from rfl),
    nullable_ofOption, Option.bind_eq_bind, Option.bind_some,
    required_bind (texts?_map_ofText r.failures)]
  rfl

/-! ### The counts of accounts -/

/-- The counts in the report of accounts have 64 bits where those of the accounts have. -/
lemma fits_of_accounts {a : Accounts} (hworkers : a.workers.length < limit64)
    (hchains : a.chains < limit64) (hlinks : a.links < limit64) (h : ofAccounts a = .ok r) :
    r.Fits := by
  rw [ofAccounts] at h
  cases hmerged : mergeAll Tally.empty (a.workers.map WorkerReport.tally) with
  | error o =>
      rw [hmerged] at h
      cases h
  | ok t =>
      rw [hmerged] at h
      obtain rfl := Except.ok.inj h
      obtain ⟨hiterations, htransactional, hdirect, hhigh, haborted, hpauses⟩ := t.counters_fit
      -- every class holds workers of the accounts only
      have hclass (p : WorkerReport → Bool) : (a.workers.filter p).length < limit64 :=
        Nat.lt_of_le_of_lt (List.length_filter_le p a.workers) hworkers
      have hfailures : (failuresOf a.workers).length < limit64 :=
        Nat.lt_of_le_of_lt (List.length_filterMap_le _ _) hworkers
      simp only [Fits, counts, List.forall_mem_cons]
      exact ⟨hworkers, hclass _, hclass _, hfailures, hiterations, htransactional, hdirect, hhigh,
        haborted, hpauses, hchains, hlinks, List.forall_mem_nil _⟩

/-! ### Printing -/

/-- A text tells a report by a value: the text spells the value from its first character up to the end
of the last line, and is read as that value and no other; the value is a record with exactly the
fields in their order, and all but the ratio is read out of it. -/
structure Tells (text : String) (v : Json) (r : Report) : Prop where
  spelled : ∃ s, text.toList = s ++ ['\n'] ∧ Spells v s
  parsed : ∀ w, parse? text = some w ↔ w = v
  record : ∃ ms, v = .object ms ∧ ms.map Prod.fst = fieldNames.map some ∧ fieldNames.Nodup
  decoded : ofJson? v = some { r with highPriorityRatio := Ratio.zero }

/-- The text of a report with the given value for the ratio, its last line ended. -/
def documentWith (ratio : Json) (r : Report) : String :=
  (r.recordWith ratio).pretty ++ "\n"

lemma document_eq (r : Report) : r.document =
    r.documentWith (.number (Ratio.Layout.documents.chars r.highPriorityRatio)) := by
  rw [document, documentChars, toJson_eq, String.ofList_append]
  rfl

lemma documentWith_tells (hr : r.Fits) {ratio : Json} (hratio : Proper ratio) :
    Tells (r.documentWith ratio) (r.recordWith ratio) r := by
  have hspells := prettyChars_spells (recordWith_proper hratio r) 0
  have htext : (r.documentWith ratio).toList = prettyChars 0 (r.recordWith ratio) ++ ['\n'] := by
    rw [documentWith, String.toList_append, pretty, String.toList_ofList]
    rfl
  refine ⟨⟨_, htext, hspells⟩, fun w => ?_, ⟨_, rfl, rfl, fieldNames_nodup⟩,
    ofJson?_recordWith hr ratio⟩
  have hdocument : Document (r.recordWith ratio) (r.documentWith ratio).toList := by
    rw [htext]
    exact .mk .nil hspells newLine_blank
  rw [parse?_eq_some_iff]
  exact ⟨fun hw => hw.eq hdocument, fun hw => hw ▸ hdocument⟩

lemma tells_document (hr : r.Fits) : Tells r.document r.toJson r := by
  rw [document_eq, toJson_eq]
  exact documentWith_tells hr (.number (Ratio.Layout.chars_lexeme _ _))

/-- **The document of a report tells the report.** Whatever its texts hold, it is one record with
exactly the fields in their order, its line is ended, and every count, every duration, the sentinel's
answer and every text is read out of it as it was. What stands for the ratio makes no difference to
this, were it no number at all. -/
theorem document_tells (r : Report) (hr : r.Fits) :
    Tells r.document r.toJson r ∧
      ∀ ratio, Proper ratio → Tells (r.documentWith ratio) (r.recordWith ratio) r :=
  ⟨tells_document hr, fun _ => documentWith_tells hr⟩

/-- A report of the longest counts and durations, with quotes, backslashes, controls, ends of lines
and what would be further fields in its texts. -/
theorem document_tells_at_forgery :
    let r : Report :=
      { workers := 18446744073709551615, completed := 0, cancelled := 1, failed := 2
        iterations := 18446744073709551615, transactional := 9007199254740993, direct := 1
        highPriority := 1, highPriorityRatio := Ratio.ofCounts 1 18446744073709551615
        abortedTransactions := 0, throttlePauses := 0
        averageLatency := ⟨Duration.limit - 1, by decide⟩, maxLatency := ⟨1000000001, by decide⟩
        elapsed := Duration.zero, pressureChains := 0, pressureExecutions := 18446744073709551615
        sentinelKey := "k\",\n  \"workers\": 1,\\u0022\x00\x08\x1f\x7f", sentinelExists := none
        failures := ["", "\\\"\r\n\t/", "é\u2028\ufffd😀"] }
    r.Fits ∧ Tells r.document r.toJson r :=
  ⟨by decide, (document_tells _ (by decide)).1⟩

end Report

end StoreSoak
