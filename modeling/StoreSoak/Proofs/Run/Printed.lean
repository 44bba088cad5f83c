import StoreSoak.Proofs.Run.Order

/-!
What a run prints.

A run prints in three places: the answer to its look for the sentinel key, the text of its report,
and the prompt for the operator. Which of them it prints depends on the store, on the reporter, on
the configuration and on the workers.

* `printed` is everything that a run has printed, `told` what that comes to once its report is out.
* `Spoken`: the invariant of a run, phase by phase; `Spoken.stepped` says that every event keeps it.
* `exists_told`: a run whose report went out has printed what is told, and nothing else. At its end
  the operator has been waited for exactly where that is asked for and no worker has failed.
-/

namespace StoreSoak

namespace Deed

/-- What a deed prints. -/
def line? : Deed → Option String
  | .printed s => some s
  | _ => none

end Deed

namespace Run

variable {σ : Type}

/-- Everything that a run has printed. -/
def printed (r : Run σ) : String :=
  String.join (r.trail.reverse.filterMap Deed.line?)

/-- The line with the answer about the sentinel key, if there is an answer. -/
def answer (key : String) : Option Bool → String
  | some present => sentinelLine key present
  | none => ""

/-- Whether a run with the given report waits for the operator. -/
def waits (s : Setting σ) (report : Report) : Bool :=
  s.config.waitForAck && report.failures.isEmpty

/-- What a run prints with a report of the given text. -/
def told (s : Setting σ) (report : Report) (text : String) (waited : Bool) : String :=
  answer s.config.sentinelKey report.sentinelExists ++ text ++ if waited then prompt else ""

/-- A run whose report is not out yet. -/
structure Untold (r : Run σ) (line : String) : Prop where
  printed : r.printed = line
  reported : ∀ t, .reported t ∉ r.trail
  awaited : .awaited ∉ r.trail

/-- A run whose report went out with the given text, and that has or has not waited for the
operator. -/
structure Told (s : Setting σ) (r : Run σ) (report : Report) (text : String) (waited : Bool) :
    Prop where
  reporter : s.reporter report = .ok text
  printed : r.printed = told s report text waited
  reported : ∀ t, .reported t ∈ r.trail ↔ t = report
  awaited : .awaited ∈ r.trail ↔ waited = true

/-- What a run has printed in its phase. -/
def Spoken (s : Setting σ) (r : Run σ) : Prop :=
  match r.phase with
  | .reporting _ report => Untold r (answer s.config.sentinelKey report.sentinelExists)
  | .acknowledging _ report => waits s report = true ∧ ∃ text, Told s r report text false
  | .closing _ report => ∃ text, Told s r report text (waits s report)
  | .ended _ =>
    ∀ report text, .reported report ∈ r.trail → s.reporter report = .ok text →
      Told s r report text (waits s report)
  | _ => Untold r ""

/-! ### The prints of single deeds -/

section Printed

variable {r r' : Run σ}

lemma printed_of_eq (htrail : r'.trail = r.trail) : r'.printed = r.printed := by
  rw [printed, htrail, printed]

lemma printed_of_printed {line : String} (htrail : r'.trail = .printed line :: r.trail) :
    r'.printed = r.printed ++ line := by
  rw [printed, htrail, List.reverse_cons, List.filterMap_append, String.join_append, printed]
  exact congrArg (_ ++ ·) String.empty_append

/-- A deed that is more than a print prints nothing. -/
lemma printed_of_mark {d : Deed} (htrail : r'.trail = d :: r.trail) (hd : d.isMark = true) :
    r'.printed = r.printed := by
  have hline : d.line? = none := by
    cases d with
    | printed line => cases hd
    | _ => rfl
  rw [printed, htrail, List.reverse_cons, List.filterMap_append, List.filterMap_cons_none hline,
    List.filterMap_nil, List.append_nil, printed]

/-- The look prints its answer. -/
lemma looked_printed (s : Setting σ) (r : Run σ) (db : Database σ) :
    (r.looked s db).printed = r.printed ++ answer s.config.sentinelKey
      (db.keyExists s.config.sentinelKey r.pool.store).1.toOption := by
  rw [looked]
  dsimp only
  cases (db.keyExists s.config.sentinelKey r.pool.store).1 with
  | error e => exact (printed_of_mark rfl rfl).trans String.append_empty.symm
  | ok present => exact (printed_of_printed rfl).trans (congrArg (· ++ _) (printed_of_mark rfl rfl))

lemma putText_printed (r : Run σ) (report : Report) (text : String) :
    (r.putText report text).printed = r.printed ++ text := by
  rw [putText]
  split
  · rename_i hempty
    rw [String.isEmpty_iff.mp hempty, String.append_empty]
    exact printed_of_mark rfl rfl
  · exact (printed_of_printed rfl).trans (congrArg (· ++ text) (printed_of_mark rfl rfl))

end Printed

/-! ### The prints of a run -/

section Spoken

variable {s : Setting σ} {r r' : Run σ} {e : Event} {report : Report} {text : String}
  {waited : Bool}

lemma Untold.of_trail {line : String} (h : Untold r line) (htrail : r'.trail = r.trail) :
    Untold r' line :=
  ⟨(printed_of_eq htrail).trans h.printed, by rw [htrail]; exact h.reported,
    by rw [htrail]; exact h.awaited⟩

/-- A run that selects its database has nothing to tell yet. -/
lemma Untold.selected {line : String} {database : ℤ} (h : Untold r line)
    (htrail : r'.trail = .selected database :: r.trail) : Untold r' line := by
  refine ⟨(printed_of_mark htrail rfl).trans h.printed, ?_, ?_⟩
  · simpa [htrail] using h.reported
  · simpa [htrail] using h.awaited

/-- The look leaves the report to be put out. -/
lemma Untold.looked (h : Untold r "") (db : Database σ) :
    Untold (r.looked s db) (answer s.config.sentinelKey
      (db.keyExists s.config.sentinelKey r.pool.store).1.toOption) := by
  refine ⟨by rw [looked_printed, h.printed, String.empty_append],
    reported_notMem_looked h.reported, fun ht => ?_⟩
  rcases mem_looked_trail s r db ht with ht | ⟨line, ht⟩ | ht
  · cases ht
  · cases ht
  · exact h.awaited ht

/-- The report goes out. -/
lemma Untold.putText (h : Untold r (answer s.config.sentinelKey report.sentinelExists))
    (ht : s.reporter report = .ok text) : Told s (r.putText report text) report text false := by
  refine ⟨ht, ?_, mem_reported_iff h.reported, iff_of_false (fun hawaited => ?_) Bool.noConfusion⟩
  · rw [putText_printed, h.printed, told, if_neg Bool.noConfusion, String.append_empty]
  · rcases (mem_putText_trail r report text).mp hawaited with ⟨ht, -⟩ | ht | ht
    · cases ht
    · cases ht
    · exact h.awaited ht

lemma Told.of_trail (h : Told s r report text waited) (htrail : r'.trail = r.trail) :
    Told s r' report text waited :=
  ⟨h.reporter, (printed_of_eq htrail).trans h.printed, by rw [htrail]; exact h.reported,
    by rw [htrail]; exact h.awaited⟩

/-- The prompt is printed, and the operator waited for. -/
lemma Told.await (h : Told s r report text false)
    (htrail : r'.trail = .awaited :: .printed prompt :: r.trail) :
    Told s r' report text true := by
  refine ⟨h.reporter, ?_, fun t => ?_, iff_of_true (by simp [htrail]) rfl⟩
  · have hprompt : r'.printed = (r.did (.printed prompt)).printed := printed_of_mark htrail rfl
    rw [hprompt, printed_of_printed rfl, h.printed, told, told, if_neg Bool.noConfusion,
      if_pos rfl, String.append_empty]
  · rw [htrail, ← h.reported t]
    simp

/-- The end of the connection is silent. -/
lemma Told.closed {now : ℕ} (h : Told s r report text waited)
    (htrail : r'.trail = .closed now :: r.trail) : Told s r' report text waited := by
  refine ⟨h.reporter, (printed_of_mark htrail rfl).trans h.printed, fun t => ?_, ?_⟩
  · rw [htrail, ← h.reported t]
    simp
  · rw [htrail, ← h.awaited]
    simp

/-- A run that has told its only report has told every report that went out. -/
lemma Told.only (h : Told s r report text waited) {t : Report} {text' : String}
    (hmem : .reported t ∈ r.trail) (ht : s.reporter t = .ok text') :
    t = report ∧ text' = text := by
  obtain rfl := (h.reported t).mp hmem
  exact ⟨rfl, Except.ok.inj (ht.symm.trans h.reporter)⟩

/-- What happens besides the moves of a run prints nothing. -/
lemma Spoken.aside (h : Spoken s r) (ha : Aside r r') : Spoken s r' := by
  rw [Spoken] at h ⊢
  rw [ha.phase]
  cases hp : r.phase with
  | acknowledging sentinel report =>
      rw [hp] at h
      obtain ⟨hwaits, text, htold⟩ := h
      exact ⟨hwaits, text, htold.of_trail ha.trail⟩
  | closing sentinel report =>
      rw [hp] at h
      obtain ⟨text, htold⟩ := h
      exact ⟨text, htold.of_trail ha.trail⟩
  | ended o =>
      rw [hp] at h
      intro report text hmem ht
      rw [ha.trail] at hmem
      exact (h report text hmem ht).of_trail ha.trail
  | _ =>
      rw [hp] at h
      exact h.of_trail ha.trail

/-- A run ends without a report. -/
lemma Spoken.of_untold {line : String} {o : Outcome} (h : Untold r line) :
    Spoken s (r.finish o) :=
  fun report _ hmem _ => absurd hmem (h.reported report)

/-- A run ends once it has told its report. -/
lemma Spoken.of_told {o : Outcome} (hp : r'.phase = .ended o)
    (h : Told s r' report text (waits s report)) : Spoken s r' := by
  rw [Spoken, hp]
  intro t text' hmem ht
  obtain ⟨rfl, rfl⟩ := h.only hmem ht
  exact h

/-- The report does not go out. A run that ends so has no text to print: the reporter fails on the
only report there is. -/
lemma Spoken.unreported {f : IoFault}
    (h : Untold r (answer s.config.sentinelKey report.sentinelExists))
    (hf : s.reporter report = .error f) :
    Spoken s ((r.did (.reported report)).finish (.failed (.io f))) := by
  intro t text hmem ht
  rcases List.mem_cons.mp hmem with hmem | hmem
  · rw [Deed.reported.inj hmem, hf] at ht
    cases ht
  · exact absurd hmem (h.reported t)

/-- The report goes out. -/
lemma Spoken.reported {sentinel : Except StoreError Bool}
    (h : Untold r (answer s.config.sentinelKey report.sentinelExists))
    (ht : s.reporter report = .ok text) :
    Spoken s ((r.putText report text).goTo
      (if s.config.waitForAck && report.failures.isEmpty then .acknowledging sentinel report
        else .closing sentinel report)) := by
  have htold := h.putText ht
  have hphase : (s.config.waitForAck && report.failures.isEmpty) = waits s report := rfl
  rw [hphase]
  cases hwaits : waits s report with
  | true => exact ⟨hwaits, text, htold.of_trail rfl⟩
  | false => exact ⟨text, by rw [hwaits]; exact htold.of_trail rfl⟩

/-- The moves of a run. -/
lemma Spoken.advanced (h : Spoken s r) (hs : Advanced s r r') : Spoken s r' := by
  rw [Spoken] at h
  cases hs with
  | refused hp hdb =>
      rw [hp] at h
      exact .of_untold (h.selected rfl)
  | crowded hp hdb hb =>
      rw [hp] at h
      exact .of_untold (h.selected rfl)
  | launch hp hdb hb =>
      rw [hp] at h
      exact h.selected rfl
  | release hp =>
      rw [hp] at h
      exact h.of_trail rfl
  | gathered hp hover =>
      rw [hp] at h
      exact h.of_trail rfl
  | retired hp hover =>
      rw [hp] at h
      exact h.of_trail rfl
  | @overflowed db o hp hdb ho =>
      rw [hp] at h
      exact .of_untold (h.looked db)
  | @looked db report hp hdb ho =>
      rw [hp] at h
      -- the answer that was printed is the one in the report
      have hsentinel : report.sentinelExists =
          (db.keyExists s.config.sentinelKey r.pool.store).1.toOption := (ofAccounts_parts ho).2
      have hlooked : Untold (r.looked s db)
          (answer s.config.sentinelKey report.sentinelExists) := hsentinel ▸ h.looked db
      exact hlooked.of_trail rfl
  | unreported hp hf =>
      rw [hp] at h
      exact .unreported h hf
  | reported hp ht =>
      rw [hp] at h
      exact .reported h ht
  | unacknowledged hp hf =>
      rw [hp] at h
      obtain ⟨hwaits, text, htold⟩ := h
      exact .of_told rfl (hwaits ▸ htold.await rfl)
  | acknowledged hp hf =>
      rw [hp] at h
      obtain ⟨hwaits, text, htold⟩ := h
      exact ⟨text, hwaits ▸ htold.await rfl⟩
  | unclosed hp hc =>
      rw [hp] at h
      obtain ⟨text, htold⟩ := h
      exact .of_told rfl (htold.closed rfl)
  | closed hp hc =>
      rw [hp] at h
      obtain ⟨text, htold⟩ := h
      exact .of_told rfl (htold.closed rfl)

/-- **Every event keeps to what a run has to tell.** -/
theorem Spoken.stepped (h : Spoken s r) (hs : Stepped s r e r') : Spoken s r' := by
  rcases hs.aside with ⟨-, hs⟩ | ha
  · exact h.advanced hs
  · exact h.aside ha

lemma Spoken.begin (s : Setting σ) (store : σ) : Spoken s (begin s store) :=
  ⟨rfl, fun _ => List.not_mem_nil, List.not_mem_nil⟩

/-- A run whose report is out has told it. -/
lemma Spoken.exists_told (h : Spoken s r) (hmem : .reported report ∈ r.trail)
    (ht : s.reporter report = .ok text) :
    ∃ waited, Told s r report text waited ∧
      ∀ o, r.outcome? = some o → waited = waits s report := by
  rw [Spoken] at h
  rw [outcome?]
  -- up to the end of the phase of reporting no report is out
  cases hp : r.phase with
  | acknowledging sentinel t =>
      rw [hp] at h
      obtain ⟨-, text', htold⟩ := h
      obtain ⟨rfl, rfl⟩ := htold.only hmem ht
      exact ⟨false, htold, fun _ ho => absurd ho (by simp)⟩
  | closing sentinel t =>
      rw [hp] at h
      obtain ⟨text', htold⟩ := h
      obtain ⟨rfl, rfl⟩ := htold.only hmem ht
      exact ⟨_, htold, fun _ ho => absurd ho (by simp)⟩
  | ended o =>
      rw [hp] at h
      exact ⟨_, h report text hmem ht, fun _ _ => rfl⟩
  | _ =>
      rw [hp] at h
      exact absurd hmem (h.reported report)

end Spoken

end Run

end StoreSoak
