import StoreSoak.Proofs.Duration.Text
import StoreSoak.Proofs.Report.Classes
import StoreSoak.Proofs.Text.Numeral

/-!
The wording of a failure tells the failure.

A number ends where a blank or a colon begins. The fixed words of a wording are followed by numbers
or by free text, and no words that can stand in one place begin other ones, so they can be told apart
from what follows them (`append_inj_of_prefixFree`). Free text comes last, so nothing in it can be
taken for what stands before it.

* `StoreError.message_inj`: the wording of an error of a store tells the error, a limit to the
  nanosecond.
* `WorkerError.message_inj`: the wording of a failure tells the worker, the iteration, the kind and
  the cause.
* `failures_unambiguous`: so does each of the failures that a report lists.
-/

namespace StoreSoak

open Text

namespace Text

variable {s t : List Char}

/-- A number and what follows it can be told apart, if that does not begin with a digit. -/
lemma decimal_append_inj {m n : ℕ} (hs : Stopped Char.isDigit s) (ht : Stopped Char.isDigit t)
    (h : decimal m ++ s = decimal n ++ t) : m = n ∧ s = t := by
  obtain ⟨hnumber, hrest⟩ := append_inj_of_stop (fun _ => isDigit_of_mem_decimal)
    (fun _ => isDigit_of_mem_decimal) hs ht h
  exact ⟨decimal_inj.mp hnumber, hrest⟩

/-- No text of the list begins another one. -/
def PrefixFree (words : List String) : Prop :=
  ∀ a ∈ words, ∀ b ∈ words, a.toList <+: b.toList → a = b

instance (words : List String) : Decidable (PrefixFree words) := by
  unfold PrefixFree; infer_instance

/-- Words of which none begins another one can be told apart from what follows them. -/
lemma append_inj_of_prefixFree {words : List String} (hwords : PrefixFree words) {a b : String}
    (ha : a ∈ words) (hb : b ∈ words) (h : a.toList ++ s = b.toList ++ t) : a = b ∧ s = t := by
  have hab : a = b := by
    rcases List.prefix_or_prefix_of_prefix ⟨s, h⟩ (List.prefix_append b.toList t) with hle | hle
    · exact hwords a ha b hb hle
    · exact (hwords b hb a ha hle).symm
  subst hab
  exact ⟨rfl, List.append_cancel_left h⟩

end Text

/-! ### Errors of a store -/

namespace StoreError

variable {e f : StoreError}

/-- The words with which the wordings begin. -/
def headings : List String :=
  ["connection error: ", "operation failed: ", "operation timed out after "]

/-- The words with which the wording of an error begins. -/
def heading : StoreError → String
  | .connection _ => "connection error: "
  | .operation _ => "operation failed: "
  | .timeout _ => "operation timed out after "

/-- What the wording says after them. -/
def detail : StoreError → String
  | .connection reason => reason
  | .operation reason => reason
  | .timeout limit => limit.text

lemma heading_mem (e : StoreError) : e.heading ∈ headings := by
  cases e <;> simp [heading, headings]

lemma toList_message (e : StoreError) : e.message.toList = e.heading.toList ++ e.detail.toList := by
  cases e <;> exact String.toList_append

lemma eq_of_detail (hheading : e.heading = f.heading) (h : e.detail = f.detail) : e = f := by
  cases e <;> cases f
  case connection.connection => exact congrArg _ h
  case operation.operation => exact congrArg _ h
  case timeout.timeout => exact congrArg _ (Duration.textChars_inj.mp (String.ofList_inj.mp h))
  all_goals simp [heading] at hheading

/-- The wording of an error of a store tells the error. -/
@[simp] lemma message_inj : e.message = f.message ↔ e = f := by
  refine ⟨fun h => ?_, fun h => h ▸ rfl⟩
  rw [← String.toList_inj, toList_message, toList_message] at h
  obtain ⟨hheading, hdetail⟩ :=
    append_inj_of_prefixFree (by decide) e.heading_mem f.heading_mem h
  exact eq_of_detail hheading (String.toList_inj.mp hdetail)

end StoreError

/-! ### Failures of workers -/

lemma Kind.name_mem (k : Kind) : k.name ∈ ["Transactional", "Direct"] := by
  cases k <;> simp [name]

lemma Kind.name_inj {k l : Kind} (h : k.name = l.name) : k = l := by
  rw [← Option.some_inj, ← ofName?_name, h, ofName?_name]

namespace WorkerError

variable {e f : WorkerError}

/-- The words that can stand after the number of the worker. -/
def headings : List String :=
  [" failed on iteration ", ": transaction aborted by its guard on iteration ", " panicked: "]

/-- The words after the number of the worker. -/
def heading : WorkerError → String
  | .store .. => " failed on iteration "
  | .guarded .. => ": transaction aborted by its guard on iteration "
  | .panicked .. => " panicked: "

/-- What the wording says of a call after the number of the iteration. -/
def callDetail (k : Kind) (source : StoreError) : List Char :=
  " (".toList ++ (k.name.toList ++ ("): ".toList ++ source.message.toList))

/-- What the wording says at the end. -/
def detail : WorkerError → List Char
  | .store _ i k source => decimal i ++ callDetail k source
  | .guarded _ i => decimal i
  | .panicked _ reason => reason.toList

lemma heading_mem (e : WorkerError) : e.heading ∈ headings := by
  cases e <;> simp [heading, headings]

lemma heading_stopped (e : WorkerError) (s : List Char) :
    Stopped Char.isDigit (e.heading.toList ++ s) := by
  cases e with
  | store w i k source =>
      show Stopped Char.isDigit (" failed on iteration ".toList ++ s)
      exact .cons rfl _
  | guarded w i =>
      show Stopped Char.isDigit (": transaction aborted by its guard on iteration ".toList ++ s)
      exact .cons rfl _
  | panicked w reason =>
      show Stopped Char.isDigit (" panicked: ".toList ++ s)
      exact .cons rfl _

lemma toList_message (e : WorkerError) :
    e.message.toList =
      "worker ".toList ++ (decimal e.worker ++ (e.heading.toList ++ e.detail)) := by
  cases e with
  | store w i k source =>
      show ("worker " ++ toString w ++ " failed on iteration " ++ toString i ++ " (" ++ k.name ++
        "): " ++ source.message).toList = _
      simp only [String.toList_append, toList_toString, List.append_assoc]
      rfl
  | guarded w i =>
      show ("worker " ++ toString w ++ ": transaction aborted by its guard on iteration " ++
        toString i).toList = _
      simp only [String.toList_append, toList_toString, List.append_assoc]
      rfl
  | panicked w reason =>
      show ("worker " ++ toString w ++ " panicked: " ++ reason).toList = _
      simp only [String.toList_append, toList_toString, List.append_assoc]
      rfl

lemma callDetail_stopped (k : Kind) (source : StoreError) :
    Stopped Char.isDigit (callDetail k source) :=
  .cons rfl _

lemma callDetail_inj {k l : Kind} {source source' : StoreError}
    (h : callDetail k source = callDetail l source') : k = l ∧ source = source' := by
  obtain ⟨hname, hsource⟩ := append_inj_of_prefixFree (by decide) k.name_mem l.name_mem
    (List.append_cancel_left h)
  have hmessage := String.toList_inj.mp (List.append_cancel_left hsource)
  exact ⟨Kind.name_inj hname, StoreError.message_inj.mp hmessage⟩

lemma eq_of_detail (hworker : e.worker = f.worker) (hheading : e.heading = f.heading)
    (h : e.detail = f.detail) : e = f := by
  cases e <;> cases f
  case store.store w i k source w' i' k' source' =>
    obtain ⟨rfl, hcall⟩ :=
      decimal_append_inj (callDetail_stopped k source) (callDetail_stopped _ _) h
    obtain ⟨rfl, rfl⟩ := callDetail_inj hcall
    exact congrArg (store · i k source) hworker
  case guarded.guarded w i w' i' =>
    obtain rfl := decimal_inj.mp h
    exact congrArg (guarded · i) hworker
  case panicked.panicked w reason w' reason' =>
    obtain rfl := String.toList_inj.mp h
    exact congrArg (panicked · reason) hworker
  all_goals simp [heading] at hheading

/-- The wording of a failure tells the failure. -/
@[simp] lemma message_inj : e.message = f.message ↔ e = f := by
  refine ⟨fun h => ?_, fun h => h ▸ rfl⟩
  rw [← String.toList_inj, toList_message, toList_message] at h
  obtain ⟨hworker, hrest⟩ := decimal_append_inj (e.heading_stopped _) (f.heading_stopped _)
    (List.append_cancel_left h)
  obtain ⟨hheading, hdetail⟩ :=
    append_inj_of_prefixFree (by decide) e.heading_mem f.heading_mem hrest
  exact eq_of_detail hworker hheading hdetail

end WorkerError

/-! ### Reports -/

namespace Report

/-- **The lines of failures are unambiguous.** Two failures with the same wording are the same: one
worker, one iteration, one kind and one cause, with the same text or the same limit. So each failure
that a report lists is the wording of a single one, which is that of the worker in its place. -/
theorem failures_unambiguous :
    Function.Injective WorkerError.message ∧
      ∀ (a : Accounts) (r : Report), ofAccounts a = .ok r →
        ∀ (i : ℕ) (line : String), r.failures[i]? = some line →
          ∃ e, (failuresOf a.workers)[i]? = some e ∧
            ∀ f : WorkerError, f.message = line ↔ f = e := by
  refine ⟨fun e f => WorkerError.message_inj.mp, fun a r hr i line hline => ?_⟩
  rw [(accountsFor_of_eq hr).failures, List.getElem?_map] at hline
  obtain ⟨e, he, rfl⟩ := Option.map_eq_some_iff.mp hline
  exact ⟨e, he, fun f => WorkerError.message_inj⟩

/-- A limit with a nanosecond that counts, next to a free text that imitates it. -/
theorem failures_unambiguous_at_mimicry :
    let late : WorkerError := .store 1 12 .direct (.timeout ⟨1500000001, by decide⟩)
    let mimic : WorkerError :=
      .store 1 12 .direct (.operation "operation timed out after 1.500000001s")
    let line := "worker 1 failed on iteration 12 (Direct): operation timed out after 1.500000001s"
    let ws : List WorkerReport :=
      [⟨0, Tally.empty, false, none⟩, ⟨1, Tally.empty, false, some late⟩,
        ⟨1, Tally.empty, true, some mimic⟩]
    ∃ r, ofAccounts ⟨ws, Duration.zero, 0, 0, "sentinel", none⟩ = .ok r ∧
      r.failures[0]? = some line ∧ ∀ f : WorkerError, f.message = line ↔ f = late := by
  intro late mimic line ws
  have hline : (ofAccounts ⟨ws, Duration.zero, 0, 0, "sentinel", none⟩).toOption.bind
      (fun r => r.failures[0]?) = some line := by decide +kernel
  cases hr : ofAccounts ⟨ws, Duration.zero, 0, 0, "sentinel", none⟩ with
  | error o =>
      rw [hr] at hline
      cases hline
  | ok r =>
      rw [hr] at hline
      obtain ⟨e, he, hunique⟩ := failures_unambiguous.2 _ r hr 0 line hline
      obtain rfl : late = e := Option.some.inj he
      exact ⟨r, rfl, hline, hunique⟩

end Report

end StoreSoak
