import StoreSoak.Proofs.Program.Runs
import StoreSoak.Proofs.Report.Document
import StoreSoak.Proofs.Run.Printed

/-!
What a command line that asks for a document finds on the output.

The report is put out as one document. It need not stand there alone: the run prints the answer to
its look for the sentinel key before it, and the prompt for the operator after it.

* `Delivered` is what is on the output when a document was put out, `delivered` that this is so.
* `document_on_output` is the whole of it: for every accepted line the output is one document exactly
  if the sentinel key could not be looked for and nobody is waited for.
-/

namespace StoreSoak

/-- The record of a run tells what the run has printed. -/
lemma Record.printed_ofOpening {σ : Type} {s : Setting σ} {o : Opening σ}
    {events : List Run.Event} {store : σ} (hopen : o.store = .ok store) :
    (ofOpening s o fun r => r.run s events).printed =
    ((Run.begin s store).run s events).printed := by
  rw [Record.printed, Record.deeds_ofOpening hopen]
  refine congrArg String.join (List.filterMap_congr (g := Deed.line?) fun d _ => ?_)
  cases d <;> rfl

namespace Program

open CommandLine

variable {σ τ : Type}

/-- What the output is when a report was put out as a document. -/
structure Delivered (a : Arguments) (report : Report) (e : Ended) : Prop where
  /-- The answer about the sentinel key, the document and the prompt, and nothing else. -/
  output : e.output = Run.answer a.config.sentinelKey report.sentinelExists ++ report.document ++
    if e.awaited then Run.prompt else ""
  document : Json.Document report.toJson report.document.toList
  /-- The document can be read off the output exactly if it stands there alone. -/
  readable : ∀ v, Json.Document v e.output.toList ↔
    v = report.toJson ∧ report.sentinelExists = none ∧ e.awaited = false

/-- The line about the sentinel key begins no document. -/
lemma sentinelLine_not_document (key : String) (present : Bool) (rest : List Char) (v : Json) :
    ¬ Json.Document v ((Run.sentinelLine key present).toList ++ rest) := by
  have happend (a b c d e : String) :
      (a ++ b ++ c ++ d ++ e).toList = a.toList ++ (b ++ c ++ d ++ e).toList := by
    simp only [String.toList_append, List.append_assoc]
  have hline : (Run.sentinelLine key present).toList = "Sentinel key '".toList ++ _ :=
    happend _ _ _ _ _
  obtain ⟨s, hs⟩ : ∃ s, "Sentinel key '".toList = 'S' :: s := ⟨_, String.toList_ofList⟩
  rw [hline, hs, ← Json.parseChars?_eq_some_iff, Json.parseChars?]
  simp [Json.value, Json.skip_cons, Json.isBlank, Json.number?, Json.unsigned?, Json.whole?.eq_def,
    Json.digits?]

/-- Behind a document the prompt is no part of it. -/
lemma document_prompt_iff (report : Report) (waited : Bool) (v : Json) :
    Json.Document v (report.document.toList ++ (if waited then Run.prompt else "").toList) ↔
      v = report.toJson ∧ waited = false := by
  have hspells := Json.prettyChars_spells report.toJson_proper 0
  have hstops (s : List Char) : Json.Stops ('\n' :: s) :=
    .cons (by unfold Json.IsExponent; decide) s
  rw [Report.document, String.toList_ofList, Report.documentChars, List.append_assoc,
    List.singleton_append, Json.document_append_iff hspells (hstops _)]
  refine and_congr_right fun _ => ?_
  cases waited with
  | true =>
      obtain ⟨s, hs⟩ : ∃ s, Run.prompt.toList = 'S' :: s := ⟨_, String.toList_ofList⟩
      refine iff_of_false (fun h => ?_) Bool.noConfusion
      rw [if_pos rfl, hs] at h
      exact absurd (h 'S' (by simp)) (by decide)
  | false => exact iff_of_true (Report.newLine_blank.append .nil) rfl

/-- What is told of a report is a document exactly if the document stands there alone. -/
lemma told_document_iff (s : Setting τ) (report : Report) (waited : Bool) (v : Json) :
    Json.Document v (Run.told s report report.document waited).toList ↔
      v = report.toJson ∧ report.sentinelExists = none ∧ waited = false := by
  rw [Run.told, String.toList_append, String.toList_append, List.append_assoc]
  cases report.sentinelExists with
  | some present =>
      refine iff_of_false (sentinelLine_not_document _ present _ v) ?_
      rintro ⟨-, hnone, -⟩
      cases hnone
  | none =>
      rw [show (Run.answer s.config.sentinelKey none).toList = [] from rfl, List.nil_append,
        document_prompt_iff]
      simp

section Delivered

variable {world : Surroundings σ} {a : Arguments} {c : Connection τ} {o : Opening τ}
  {events : List Run.Event} {report : Report}

/-- A report that was put out as a document is delivered, whatever else happened. At the end the
operator has been waited for exactly where that is asked for and no worker has failed. -/
lemma delivered (hreport : a.report = .document)
    (hmem : report ∈ (soakAt world a c o events).reports) :
    Delivered a report (conclude (soakAt world a c o events)) ∧
      ((soakAt world a c o events).outcome ≠ none →
        ((conclude (soakAt world a c o events)).awaited = true ↔
          a.noWait = false ∧ report.failures = [])) := by
  obtain ⟨store, hopen⟩ := Record.exists_store hmem
  have hspoken : Run.Spoken (setting world a c)
      ((Run.begin (setting world a c) store).run (setting world a c) events) :=
    Run.run_induction (fun h hs => h.stepped hs) (.begin _ store) events
  have hreporter : (setting world a c).reporter report = .ok report.document := by
    show reporter a.report report = _
    rw [hreport]
    rfl
  obtain ⟨waited, htold, hended⟩ :=
    hspoken.exists_told ((Record.mem_reports_ofOpening hopen).mp hmem) hreporter
  -- what the program prints and waits for is what its run told and awaited
  have houtput : (conclude (soakAt world a c o events)).output =
      Run.told (setting world a c) report report.document waited := by
    rw [conclude_output, soakAt, Record.printed_ofOpening hopen, htold.printed]
  have hawaited : (conclude (soakAt world a c o events)).awaited = waited := by
    rw [conclude_awaited, soakAt, Bool.eq_iff_iff, Record.contains_awaited_ofOpening hopen]
    exact htold.awaited
  refine ⟨⟨by rw [houtput, hawaited]; rfl, report.document_reads, fun v => ?_⟩, fun hne => ?_⟩
  · rw [houtput, hawaited, told_document_iff]
  · obtain ⟨outcome, ho⟩ := Option.ne_none_iff_exists'.mp hne
    rw [soakAt, Record.outcome_ofOpening hopen] at ho
    rw [hawaited, hended outcome ho, Run.waits]
    show (!a.noWait && report.failures.isEmpty) = true ↔ _
    simp

end Delivered

/-- **What is on the output of a command line that asks for a document.**

At every moment of every run that has put its report out, whatever the store, the workers and the
operator do, the output is the line about the sentinel key where that was answered, the document,
and the prompt where the operator is waited for. So it is one document exactly if there is neither a
line before it nor a prompt behind it. The program is one of these runs once its threads are
there. -/
theorem document_on_output (world : Surroundings σ) {words : List String} {a : Arguments}
    (ha : parse words = .ok a) (hreport : a.report = .document) :
    (∀ record, Soaked world a record → ∀ report ∈ record.reports,
      Delivered a report (conclude record) ∧
        (record.outcome ≠ none →
          ((conclude record).awaited = true ↔ a.noWait = false ∧ report.failures = []))) ∧
    (a.workerThreads.bind threadFault? = none → ∃ record, Soaked world a record ∧
      record.outcome ≠ none ∧ run world words = conclude record) := by
  refine ⟨fun record hsoaked report hmem => ?_, fun hthreads => ?_⟩
  · cases hsoaked with
    | memory h events => exact delivered hreport hmem
    | remote h events => exact delivered hreport hmem
  · rw [run, ha]
    exact exists_soaked_eq world hthreads

/-- The server is gone after the connection was opened. A worker fails, the sentinel key cannot be
looked for, and nobody is waited for though that is asked for: the document stands alone. -/
theorem document_on_output_at_lost_server :
    let words := ["--report", "json", "--workers", "2", "--iterations", "2", "--no-pressure"]
    let a : Arguments :=
      { workers := 2, iterations := 2, noPressure := true, report := .document }
    let world : Surroundings Unit :=
      { processors := 1
        entropy := fun _ => ⟨Key.ofSeed 0, 0, [0]⟩
        network := ⟨fun _ => .ok (), fun _ u => (.gone, u)⟩
        input := [] }
    let events : List Run.Event := List.flatten
      [List.replicate 2 .control, List.replicate 6 (.turn 1), List.replicate 6 (.turn 0),
        List.replicate 5 .control]
    let record := soakAt world a (Remote.connection world.network a.connectOptions)
      (Remote.opening world.network a.address a.connectOptions) events
    parse words = .ok a ∧ record.outcome ≠ none ∧
      (∃ report ∈ record.reports,
        Json.Document report.toJson (conclude record).output.toList) ∧
      ∃ record, Soaked world a record ∧ record.outcome ≠ none ∧
        run world words = conclude record := by
  intro words a world events record
  have ha : parse words = .ok a := by decide +kernel
  obtain ⟨hdelivered, hcarried⟩ := document_on_output world ha rfl
  have hended : record.outcome ≠ none := by decide +kernel
  have hreports : record.reports.map (fun t => (t.sentinelExists, t.failures.isEmpty)) =
      [(none, false)] := by
    decide +kernel
  refine ⟨ha, hended, ?_, hcarried rfl⟩
  obtain ⟨report, hmem, heq⟩ := List.mem_map.mp (hreports ▸ List.mem_singleton_self _)
  obtain ⟨hunanswered, hfailures⟩ := Prod.mk.inj heq
  obtain ⟨hreport, hawaited⟩ := hdelivered record (.remote rfl events) report hmem
  refine ⟨report, hmem, (hreport.readable _).mpr ⟨rfl, hunanswered, ?_⟩⟩
  rw [Bool.eq_false_iff, Ne, hawaited hended, ← List.isEmpty_iff, hfailures]
  exact fun h => Bool.noConfusion h.2

/-- The store inside the process answers for the sentinel key, so that the document does not stand
alone on the output even where nobody is waited for. -/
theorem line_before_document :
    let words := ["--backend", "memory", "--report", "json", "--no-wait", "--no-pressure",
      "--workers", "1", "--iterations", "1"]
    let a : Arguments :=
      { backend := .memory, report := .document, noWait := true, noPressure := true, workers := 1
        iterations := 1 }
    let world : Surroundings Unit :=
      { processors := 1
        entropy := fun _ => ⟨Key.ofSeed 0, 0, []⟩
        network := ⟨fun _ => .error ⟨.connectionRefused, none⟩, fun _ u => (.gone, u)⟩
        input := [] }
    parse words = .ok a ∧ run world words = conclude (soak world a) ∧
      (∃ report, report ∈ (soak world a).reports) ∧
      ∀ v, ¬ Json.Document v (run world words).output.toList := by
  intro words a world
  have ha : parse words = .ok a := by decide +kernel
  have hrun : run world words = conclude (soak world a) := by
    rw [run, ha]
    rfl
  obtain ⟨events, heq, -⟩ := exists_soakAt_eq world a Memory.connection
    (Memory.openAt a.address a.connectOptions)
  have hsoak : soak world a = soakAt world a Memory.connection
    (Memory.openAt a.address a.connectOptions) events := heq
  have hreports : (soak world a).reports.map Report.sentinelExists = [some false] := by
    decide +kernel
  obtain ⟨report, hmem, hanswered⟩ := List.mem_map.mp (hreports ▸ List.mem_singleton_self _)
  refine ⟨ha, hrun, ⟨report, hmem⟩, fun v hv => ?_⟩
  rw [hsoak] at hmem hrun
  rw [hrun, (delivered rfl hmem).1.readable v, hanswered] at hv
  -- the answer about the sentinel key was printed, so the text has two parts
  cases hv.2.1

end Program

end StoreSoak
