import StoreSoak.Measure.Sample
import StoreSoak.Measure.Tally
import StoreSoak.Proofs.Json.Records
import StoreSoak.Proofs.Json.Writing

/-!
Tallies, samples and kinds survive being written and read.

* `Json.read?` reads a text and decodes its value.
* `ofJson?_toJson`: each decoder takes back what its encoder gives, for kinds, samples and tallies.
* `RoundTrip` puts writing and reading together: whatever is encoded is read back, and whatever is
  read can be encoded and is read back again. It does not depend on how the text is laid out, since a
  document is read as the value that it spells.
* `metrics_round_trip` states it for all three, with what the decoders let pass and how durations
  are carried.
-/

namespace StoreSoak

namespace Json

variable {α : Type}

/-- Reads a text and decodes its value. -/
def read? (decode : Json → Option α) (text : String) : Option α :=
  (parse? text).bind decode

variable {encode : α → Json} {decode : Json → Option α}

/-- The texts that are read are documents of values that are decoded, whatever their blanks and
escapes. -/
lemma read?_eq_some_iff {text : String} {x : α} :
    read? decode text = some x ↔ ∃ v, Document v text.toList ∧ decode v = some x := by
  simp only [read?, Option.bind_eq_some_iff, parse?_eq_some_iff]

/-- What holds of the values of a kind and their texts. -/
structure RoundTrip (encode : α → Json) (decode : Json → Option α) (Valid : α → Prop) : Prop where
  /-- What is encoded is read back, from either of its texts. -/
  encoded : ∀ x, Valid x →
    read? decode (encode x).compact = some x ∧ read? decode (encode x).pretty = some x
  /-- What is read out of any text can be encoded and is read back. -/
  decoded : ∀ text x, read? decode text = some x →
    Valid x ∧ read? decode (encode x).compact = some x
  /-- A text is read exactly if it is a document of a value that can be decoded. -/
  accepted : ∀ text x, read? decode text = some x ↔
    ∃ v, Document v text.toList ∧ decode v = some x

/-- It is enough that the decoder takes back what the encoder gives. -/
lemma RoundTrip.of_decode {Valid : α → Prop} (hproper : ∀ x, Proper (encode x))
    (hencoded : ∀ x, Valid x → decode (encode x) = some x)
    (hvalid : ∀ v x, decode v = some x → Valid x) : RoundTrip encode decode Valid := by
  have htexts (x : α) (hx : Valid x) :
      read? decode (encode x).compact = some x ∧ read? decode (encode x).pretty = some x := by
    rw [read?, read?, parse?_compact (hproper x), parse?_pretty (hproper x), Option.bind_some]
    exact ⟨hencoded x hx, hencoded x hx⟩
  refine ⟨htexts, fun text x h => ?_, fun text x => read?_eq_some_iff⟩
  obtain ⟨v, -, hv⟩ := read?_eq_some_iff.mp h
  exact ⟨hvalid v x hv, (htexts x (hvalid v x hv)).1⟩

end Json

open Json

namespace Kind

lemma ofJson?_toJson (k : Kind) : ofJson? k.toJson = some k :=
  ofName?_name k

lemma roundTrip : RoundTrip toJson ofJson? fun _ => True :=
  .of_decode (fun k => .text k.name) (fun k _ => ofJson?_toJson k) fun _ _ _ => trivial

end Kind

namespace Sample

lemma toJson_proper (s : Sample) : Proper s.toJson := by
  have hcommitted : Proper (.ofOption .bool s.committed) := .ofOption .bool s.committed
  refine .record ?_
  simp [Proper.ofNat, Proper.ofDuration, Proper.bool, hcommitted, Kind.toJson, ofText, Proper.text]

lemma lenient : Lenient fieldNames ofJson? :=
  .of_fields (by decide) fun v w h => by rw [ofJson?, ofJson?, h]

lemma fields_toJson (s : Sample) : fields fieldNames false s.toJson =
    some [some (.ofNat s.iteration), some s.kind.toJson, some (.bool s.highPriority),
      some (.ofDuration s.latency), some (.ofOption .bool s.committed)] :=
  fields_record _ (by simp) false

/-- A sample is taken back, its number being one of 64 bits. -/
lemma ofJson?_toJson {s : Sample} (h : s.iteration < limit64) : ofJson? s.toJson = some s := by
  rw [ofJson?, fields_toJson]
  dsimp only
  rw [required_bind (natBelow_ofNat h), required_bind (Kind.ofJson?_toJson s.kind),
    required_bind (show truth? (.bool s.highPriority) = some s.highPriority from rfl),
    required_bind (duration_ofDuration s.latency), nullable_ofOption]
  rfl

/-- What a sample is read from. -/
lemma of_ofJson? {v : Json} {s : Sample} (h : ofJson? v = some s) :
    s.iteration < limit64 ∧ ∃ i k p w c, fields fieldNames false v = some [i, k, p, some w, c] ∧
      duration w = some s.latency := by
  rw [ofJson?] at h
  split at h
  · rename_i i k p l c hfields
    simp only [required, Option.bind_eq_bind, Option.bind_eq_some_iff] at h
    obtain ⟨iteration, ⟨a, -, ha⟩, kind, -, priority, -, latency, ⟨w, rfl, hw⟩, committed, -, hs⟩ := h
    obtain rfl := Option.some.inj hs
    exact ⟨lt_of_natBelow ha, i, k, p, w, c, hfields, hw⟩
  · cases h

lemma roundTrip : RoundTrip toJson ofJson? fun s => s.iteration < limit64 :=
  .of_decode toJson_proper (fun _ h => ofJson?_toJson h) fun _ _ h => (of_ofJson? h).1

end Sample

namespace Tally

lemma toJson_proper (t : Tally) : Proper t.toJson := by
  refine .record ?_
  simp [Proper.ofNat, Proper.ofDuration]

lemma lenient : Lenient fieldNames ofJson? :=
  .of_fields (by decide) fun v w h => by rw [ofJson?, ofJson?, h]

lemma fields_toJson (t : Tally) : fields fieldNames false t.toJson =
    some [some (.ofNat t.totals.iterations), some (.ofNat t.totals.transactional),
      some (.ofNat t.totals.direct), some (.ofNat t.totals.highPriority),
      some (.ofNat t.totals.aborted), some (.ofNat t.totals.pauses),
      some (.ofDuration t.totalLatency), some (.ofDuration t.maxLatency)] :=
  fields_record _ (by simp) false

lemma natBelow_counter {n : ℕ} (h : n < Totals.counterLimit) :
    natBelow limit64 (.ofNat n) = some n :=
  natBelow_ofNat h

/-- A tally is taken back. -/
lemma ofJson?_toJson (t : Tally) : ofJson? t.toJson = some t := by
  obtain ⟨hiterations, htransactional, hdirect, hhigh, haborted, hpauses⟩ := t.counters_fit
  rw [ofJson?, fields_toJson]
  dsimp only
  rw [required_bind (natBelow_counter hiterations), required_bind (natBelow_counter htransactional),
    required_bind (natBelow_counter hdirect), required_bind (natBelow_counter hhigh),
    required_bind (natBelow_counter haborted), required_bind (natBelow_counter hpauses),
    required_bind (duration_ofDuration t.totalLatency),
    required_bind (duration_ofDuration t.maxLatency)]
  show (ofTotals? t.totals).toOption = some t
  rw [ofTotals?_totals]
  rfl

lemma toOption_eq_some_iff {ε α : Type} {e : Except ε α} {x : α} :
    e.toOption = some x ↔ e = .ok x := by
  cases e <;> simp [Except.toOption]

/-- What a tally is read from. -/
lemma of_ofJson? {v : Json} {t : Tally} (h : ofJson? v = some t) :
    ∃ counters a b, fields fieldNames false v = some (counters ++ [some a, some b]) ∧
      duration a = some t.totalLatency ∧ duration b = some t.maxLatency := by
  rw [ofJson?] at h
  split at h
  · rename_i c₁ c₂ c₃ c₄ c₅ c₆ total longest hfields
    simp only [required, Option.bind_eq_bind, Option.bind_eq_some_iff] at h
    obtain ⟨_, _, _, _, _, _, _, _, _, _, _, _, total, ⟨a, rfl, ha⟩, longest, ⟨b, rfl, hb⟩, ht⟩ := h
    rw [toOption_eq_some_iff, ofTotals?_eq_ok_iff] at ht
    -- the totals were checked as read, so the durations are those of the tally
    have htotal : total = t.totalLatency :=
      Duration.ext (congrArg Totals.latency ht).symm
    have hlongest : longest = t.maxLatency :=
      Duration.ext (congrArg Totals.longest ht).symm
    exact ⟨[c₁, c₂, c₃, c₄, c₅, c₆], a, b, hfields, htotal ▸ ha, hlongest ▸ hb⟩
  · cases h

lemma roundTrip : RoundTrip toJson ofJson? fun _ => True :=
  .of_decode toJson_proper (fun t _ => ofJson?_toJson t) fun _ _ _ => trivial

end Tally

/-- **Metrics survive being written and read.** Every tally, every sample whose number is one of 64
bits, and every kind is read back from its text; and whatever is read out of any text can be written
and is read back. The decoders take the fields of a record in any order, among others or without
their names, and carry the nanoseconds that make up a second. -/
theorem metrics_round_trip :
    RoundTrip Tally.toJson Tally.ofJson? (fun _ => True) ∧
      RoundTrip Sample.toJson Sample.ofJson? (fun s => s.iteration < limit64) ∧
      RoundTrip Kind.toJson Kind.ofJson? (fun _ => True) ∧
      Lenient Tally.fieldNames Tally.ofJson? ∧ Lenient Sample.fieldNames Sample.ofJson? ∧
      (∀ v t, Tally.ofJson? v = some t → ∃ counters a b,
        fields Tally.fieldNames false v = some (counters ++ [some a, some b]) ∧
          Carried a t.totalLatency ∧ Carried b t.maxLatency) ∧
      ∀ v s, Sample.ofJson? v = some s → ∃ iteration kind priority a committed,
        fields Sample.fieldNames false v = some [iteration, kind, priority, some a, committed] ∧
          Carried a s.latency := by
  refine ⟨Tally.roundTrip, Sample.roundTrip, Kind.roundTrip, Tally.lenient, Sample.lenient,
    fun v t h => ?_, fun v s h => ?_⟩
  · obtain ⟨counters, a, b, hfields, ha, hb⟩ := Tally.of_ofJson? h
    exact ⟨counters, a, b, hfields, .of_duration ha, .of_duration hb⟩
  · obtain ⟨-, i, k, p, w, c, hfields, hw⟩ := Sample.of_ofJson? h
    exact ⟨i, k, p, w, c, hfields, .of_duration hw⟩

/-- A sample with its fields out of order, one of them escaped, beside a field that is none, and with
its latency as a row of two numbers of which the second is carried. -/
theorem metrics_round_trip_at_carry :
    let text := "\x7b\"latency\":[1,2500000000], \"note\":[null],\n\"high_priority\" : true,\"kind\":" ++
      "\x7b\"Direct\":null\x7d,\"\\u0069teration\":18446744073709551615\x7d"
    let s : Sample :=
      { iteration := 18446744073709551615, kind := .direct, highPriority := true
        latency := ⟨3500000000, by decide⟩, committed := none }
    read? Sample.ofJson? text = some s ∧ s.iteration < limit64 ∧
      read? Sample.ofJson? s.toJson.compact = some s := by
  intro text s
  have hread : read? Sample.ofJson? text = some s := by decide +kernel
  exact ⟨hread, metrics_round_trip.2.1.decoded text s hread⟩

end StoreSoak
