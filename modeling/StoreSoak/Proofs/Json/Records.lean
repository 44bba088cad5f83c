import Mathlib.Data.List.Nodup
import StoreSoak.Json.Decode

/-!
What is read out of a record.

* `fields_record`: the fields of a record that was written are found again.
* `Lenient` decoders take the fields of a record in any order, pass over other members, and take the
  values alone in the order of the fields; every decoder that goes by `fields` is of this kind.
* `duration_ofDuration`: a duration is read back, and `Carried` says what is read as one.
-/

namespace StoreSoak.Json

/-! ### Numbers -/

lemma natBelow_ofNat {limit n : ℕ} (h : n < limit) : natBelow limit (.ofNat n) = some n := by
  have hdigits : (Text.decimal n).all Char.isDigit = true :=
    List.all_eq_true.mpr fun _ hc => Nat.isDigit_of_mem_toDigits (by decide) (by decide) hc
  rw [ofNat, natBelow, hdigits, Text.decimal, Nat.ofDigitChars_ten_toDigits]
  simp [h]

lemma lt_of_natBelow {limit n : ℕ} {v : Json} (h : natBelow limit v = some n) : n < limit := by
  rw [natBelow.eq_def] at h
  split at h
  · split at h
    · rename_i hlt
      rw [Bool.and_eq_true, decide_eq_true_eq] at hlt
      exact Option.some.inj h ▸ hlt.2
    · cases h
  · cases h

/-! ### Fields -/

section Fields

variable {names : List String} {strict : Bool} {ms ms' : List (Option String × Json)}

lemma member?_eq (name : String) (ms : List (Option String × Json)) :
    member? name ms = ((ms.filter fun m => m.1 = some name).head?).map Prod.snd := by
  rw [member?, List.head?_filter]

/-- Where no field occurs twice the order of the members makes no difference. -/
lemma fields_perm (h : ms.Perm ms') :
    fields names strict (.object ms) = fields names strict (.object ms') := by
  have hfilter (name : String) : (ms.filter fun m => m.1 = some name).Perm
      (ms'.filter fun m => m.1 = some name) := h.filter _
  have hoccurrences (name : String) : occurrences name ms = occurrences name ms' :=
    (hfilter name).length_eq
  have hadmissible : admissible names strict ms = admissible names strict ms' := by
    rw [admissible, admissible, h.all_eq]
    simp only [hoccurrences]
  rw [fields, fields, ← hadmissible]
  split
  · rename_i hadm
    rw [admissible, Bool.and_eq_true, List.all_eq_true, List.all_eq_true] at hadm
    refine congrArg some (List.map_congr_left fun name hname => ?_)
    have honce : (ms.filter fun m => m.1 = some name).length ≤ 1 := by
      exact of_decide_eq_true (hadm.2 name hname)
    rw [member?_eq, member?_eq]
    -- a row of at most one member has one order only
    generalize hl : ms.filter (fun m => m.1 = some name) = l at honce
    have hperm := hfilter name
    rw [hl] at hperm
    match l, honce with
    | [], _ => rw [hperm.nil_eq]
    | [m], _ => rw [List.singleton_perm.mp hperm]
  · rfl

/-- A member that is no field of a record that is not strict is passed over. -/
lemma fields_unknown {name : String} (hname : name ∉ names) (v : Json)
    (ms : List (Option String × Json)) :
    fields names false (.object ((some name, v) :: ms)) = fields names false (.object ms) := by
  have hother {field : String} (hfield : field ∈ names) : (some name = some field) ↔ False :=
    iff_of_false (fun h => hname (Option.some.inj h ▸ hfield)) not_false
  -- a name that is not asked for counts as an occurrence of none of those that are
  have hadmissible : admissible names false ((some name, v) :: ms) = admissible names false ms := by
    have hall : (names.all fun field => occurrences field ((some name, v) :: ms) ≤ 1) =
        names.all fun field => occurrences field ms ≤ 1 := by
      rw [Bool.eq_iff_iff, List.all_eq_true, List.all_eq_true]
      refine forall₂_congr fun field hfield => ?_
      rw [occurrences, List.filter_cons_of_neg (by simp [hother hfield]), occurrences]
    rw [admissible, admissible, hall]
    simp
  rw [fields, fields, hadmissible]
  split
  · refine congrArg some (List.map_congr_left fun field hfield => ?_)
    rw [member?, List.find?_cons_of_neg (by simp [hother hfield]), member?]
  · rfl

/-- In a row of members with different names each one is found. -/
lemma filter_record {fs : List (String × Json)} (hnodup : (fs.map Prod.fst).Nodup)
    {f : String × Json} (hf : f ∈ fs) :
    (fs.map fun g => (some g.1, g.2)).filter (fun m => m.1 = some f.1) = [(some f.1, f.2)] := by
  induction fs with
  | nil => exact absurd hf List.not_mem_nil
  | cons g fs ih =>
      rw [List.map_cons, List.nodup_cons] at hnodup
      obtain ⟨hfresh, hnodup⟩ := hnodup
      rcases List.mem_cons.mp hf with rfl | hf
      · have hnone : (fs.map fun g => (some g.1, g.2)).filter (fun m => m.1 = some f.1) = [] := by
          rw [List.filter_eq_nil_iff]
          intro m hm
          obtain ⟨g, hg, rfl⟩ := List.mem_map.mp hm
          simp only [decide_eq_true_eq, Option.some.injEq]
          exact fun h => hfresh (List.mem_map.mpr ⟨g, hg, h⟩)
        rw [List.map_cons, List.filter_cons_of_pos (by simp), hnone]
      · have hne : g.1 ≠ f.1 := fun h => hfresh (List.mem_map.mpr ⟨f, hf, h.symm⟩)
        rw [List.map_cons, List.filter_cons_of_neg (by simp [hne]), ih hnodup hf]

/-- The fields of a record are found in it. -/
lemma fields_record (fs : List (String × Json)) (hnodup : (fs.map Prod.fst).Nodup)
    (strict : Bool) :
    fields (fs.map Prod.fst) strict (record fs) = some (fs.map fun f => some f.2) := by
  have hadmissible : admissible (fs.map Prod.fst) strict
      (fs.map fun f => (some f.1, f.2)) = true := by
    rw [admissible, Bool.and_eq_true, List.all_eq_true, List.all_eq_true]
    refine ⟨fun m hm => ?_, fun name hname => ?_⟩
    · obtain ⟨f, hf, rfl⟩ := List.mem_map.mp hm
      simp only [Option.any_some, Bool.or_eq_true, List.contains_iff_mem]
      exact .inr (List.mem_map_of_mem hf)
    · obtain ⟨f, hf, rfl⟩ := List.mem_map.mp hname
      rw [occurrences, filter_record hnodup hf]
      rfl
  rw [record, fields, if_pos hadmissible, List.map_map]
  refine congrArg some (List.map_congr_left fun f hf => ?_)
  rw [Function.comp_apply, member?_eq, filter_record hnodup hf]
  rfl

/-- The values alone stand for the record with the fields in their order. -/
lemma fields_array {vs : List Json} (hnodup : names.Nodup) (hlength : vs.length = names.length) :
    fields names strict (.array vs) = fields names strict (record (names.zip vs)) := by
  have hnames : (names.zip vs).map Prod.fst = names :=
    List.map_fst_zip (Nat.le_of_eq hlength.symm)
  have hvalues : (names.zip vs).map Prod.snd = vs :=
    List.map_snd_zip (Nat.le_of_eq hlength)
  have hrecord := fields_record (names.zip vs) (hnames.symm ▸ hnodup) strict
  rw [hnames] at hrecord
  rw [hrecord, fields, if_pos hlength]
  refine congrArg some ?_
  conv_lhs => rw [← hvalues, List.map_map]
  rfl

end Fields

/-- A decoder of records takes the fields in any order, passes other members over, and takes the
values alone in the order of the fields. -/
structure Lenient {α : Type} (names : List String) (decode : Json → Option α) : Prop where
  order : ∀ {ms ms' : List (Option String × Json)}, ms.Perm ms' →
    decode (.object ms) = decode (.object ms')
  unknown : ∀ {name : String}, name ∉ names → ∀ (v : Json) (ms : List (Option String × Json)),
    decode (.object ((some name, v) :: ms)) = decode (.object ms)
  array : ∀ {vs : List Json}, vs.length = names.length →
    decode (.array vs) = decode (record (names.zip vs))

/-- So does every decoder that goes by the fields alone. -/
lemma Lenient.of_fields {α : Type} {names : List String} {decode : Json → Option α}
    (hnodup : names.Nodup)
    (h : ∀ v w, fields names false v = fields names false w → decode v = decode w) :
    Lenient names decode :=
  ⟨fun hperm => h _ _ (fields_perm hperm), fun hname v ms => h _ _ (fields_unknown hname v ms),
    fun hlength => h _ _ (fields_array hnodup hlength)⟩

/-! ### Values -/

/-- A truth value that may be missing is read back. -/
lemma nullable_ofOption (o : Option Bool) :
    nullable truth? (some (.ofOption .bool o)) = some o := by
  cases o <;> rfl

/-- A value that is there and can be read is handed on. -/
lemma required_bind {α β : Type} {read : Json → Option α} {v : Json} {x : α} (h : read v = some x)
    (f : α → Option β) : (required read (some v)) >>= f = f x := by
  rw [required, Option.bind_some, h]
  rfl

/-! ### Durations -/

lemma duration_of_fields {v a b : Json} {secs nanos : ℕ}
    (hfields : fields ["secs", "nanos"] true v = some [some a, some b])
    (ha : natBelow limit64 a = some secs) (hb : natBelow limit32 b = some nanos) :
    duration v = Duration.ofParts? secs nanos := by
  rw [duration, hfields]
  exact (required_bind ha _).trans (required_bind hb _)

lemma duration_ofDuration (d : Duration) : duration (ofDuration d) = some d := by
  have hfields := fields_record [("secs", ofNat d.seconds), ("nanos", ofNat d.subsecond)]
    (by simp) true
  have hnanos : d.subsecond < limit32 := Nat.lt_trans d.subsecond_lt (by decide)
  simp only [List.map_cons, List.map_nil] at hfields
  rw [ofDuration, duration_of_fields hfields (natBelow_ofNat d.seconds_lt) (natBelow_ofNat hnanos),
    Duration.ofParts?_seconds_subsecond]

/-- A value that is read as a duration: so many seconds and nanoseconds, of which those that make up
a second are carried. -/
structure Carried (v : Json) (d : Duration) : Prop where
  parts : ∃ (a b : Json) (secs nanos : ℕ), fields ["secs", "nanos"] true v = some [some a, some b] ∧
    natBelow limit64 a = some secs ∧ natBelow limit32 b = some nanos ∧
      d.seconds = secs + nanos / Duration.nanosecondsPerSecond ∧
      d.subsecond = nanos % Duration.nanosecondsPerSecond
  seconds_lt : d.seconds < limit64
  subsecond_lt : d.subsecond < Duration.nanosecondsPerSecond

lemma Carried.of_duration {v : Json} {d : Duration} (h : duration v = some d) : Carried v d := by
  rw [duration] at h
  split at h
  · rename_i secs nanos hfields
    simp only [required, Option.bind_eq_bind, Option.bind_eq_some_iff] at h
    obtain ⟨s, ⟨a, rfl, ha⟩, n, ⟨b, rfl, hb⟩, hparts⟩ := h
    rw [Duration.ofParts?, Duration.ofNanoseconds?] at hparts
    split at hparts
    · cases hparts
      refine ⟨⟨a, b, s, n, hfields, ha, hb, ?_, ?_⟩, Duration.seconds_lt _,
        Duration.subsecond_lt _⟩
      · show (s * Duration.nanosecondsPerSecond + n) / Duration.nanosecondsPerSecond = _
        rw [Nat.mul_comm, Nat.mul_add_div (by decide)]
      · exact Nat.mul_add_mod_self_right s Duration.nanosecondsPerSecond n
    · cases hparts
  · cases h

end StoreSoak.Json
