import StoreSoak.Proofs.Worker.History

/-!
The draws of a worker and what it chooses by them.

A worker draws once for every call that it issues, whatever came of the calls before, so that its
calls go through the draws of its generator in order.

* `Draw.prefix_sequence`: fewer draws are the beginning of more draws.
* `Request.choice` is what a worker chooses of a request: its kind, and whether it goes ahead of
  queued work. `Worker.choices` are the choices of all its calls.
* `Issued.drawn`, `Issued.choices`: flags and choices of the calls that were issued are those of the
  draws.
-/

namespace StoreSoak

namespace Draw

/-- One more draw comes after the others. -/
lemma sequence_succ (n : UInt32) (k : ℕ) (g : Generator) :
    sequence n (k + 1) g =
      sequence n k g ++ [(below n ((fun g => (below n g).2)^[k] g)).1] := by
  induction k generalizing g with
  | zero => rfl
  | succ k ih =>
      rw [sequence, ih, Function.iterate_succ_apply]
      rfl

lemma length_sequence (n : UInt32) (k : ℕ) (g : Generator) : (sequence n k g).length = k := by
  induction k generalizing g with
  | zero => rfl
  | succ k ih => rw [sequence, List.length_cons, ih]

/-- Fewer draws are the beginning of more draws. -/
lemma prefix_sequence (n : UInt32) (g : Generator) {k m : ℕ} (h : k ≤ m) :
    sequence n k g <+: sequence n m g := by
  induction m, h using Nat.le_induction with
  | base => exact List.prefix_rfl
  | succ m _ ih =>
      rw [sequence_succ]
      exact ih.trans (List.prefix_append _ _)

/-- The zero draw selects the high priority, and no other draw does. -/
lemma highPriority_flagsOf (d : UInt32) : (flagsOf d).highPriority = decide (d = 0) := by
  rw [flagsOf]
  split <;> simp_all [Flags.urgent, Flags.none]

/-- A draw has as many sides as the odds say, and at least one. -/
lemma sides_eq_max (odds : UInt32) : sides odds = max odds 1 := by
  show (if odds = 0 then 1 else odds) = if odds ≤ 1 then 1 else odds
  by_cases hzero : odds = 0
  · subst hzero
    rfl
  · rw [if_neg hzero]
    split
    · rename_i hle
      have hnat : odds.toNat ≤ 1 := UInt32.le_iff_toNat_le.mp hle
      have hne : odds.toNat ≠ 0 := fun h => hzero (UInt32.toNat_inj.mp h)
      exact UInt32.toNat_inj.mp (by show odds.toNat = 1; omega)
    · rfl

end Draw

namespace Request

/-- The way in which a request goes. -/
def kind : Request → Kind
  | .set _ _ _ => .direct
  | .execute _ => .transactional

/-- What a worker chooses of a request: its kind, and whether it goes ahead of queued work. -/
def choice (r : Request) : Kind × Bool :=
  (r.kind, r.flags.highPriority)

end Request

namespace Plan

/-- A request goes ahead of queued work when the draw says so. -/
lemma highPriority_request (p : Plan) (k : ℕ) (f : Flags) :
    (p.request k f).flags.highPriority = f.highPriority := by
  rw [request_eq]
  split <;> simp [Request.flags, Transaction.flags, Flags.union, Flags.none, Flags.forgetful]

lemma kind_request (p : Plan) (k : ℕ) (f : Flags) : (p.request k f).kind = kindOf k := by
  rw [request]
  cases kindOf k <;> rfl

end Plan

namespace Worker

/-- What a worker chose for its calls, in their order. -/
def choices (w : Worker) : List (Kind × Bool) :=
  w.calls.reverse.map fun c => c.request.choice

variable {p : Plan} {g g' : Generator} {calls : List Call}

/-- The flags of the calls are those of the draws in order, and the generator has made these draws
and no more. -/
lemma Issued.drawn (h : Issued p g calls g') :
    calls.reverse.map Call.drawn =
        (Draw.sequence (Draw.sides p.highPriorityOdds) calls.length g).map Draw.flagsOf ∧
      g' = (fun g => (Draw.below (Draw.sides p.highPriorityOdds) g).2)^[calls.length] g := by
  induction h with
  | nil => exact ⟨rfl, rfl⟩
  | @cons calls g' h now reply ih =>
      obtain ⟨hdrawn, hg⟩ := ih
      constructor
      · rw [List.reverse_cons, List.map_append, hdrawn, List.length_cons, Draw.sequence_succ, ← hg,
          List.map_append]
        rfl
      · rw [List.length_cons, Function.iterate_succ_apply', ← hg]
        rfl

/-- The choices of the calls are those of the parities and the draws in order. -/
lemma Issued.choices (h : Issued p g calls g') :
    (calls.reverse.map fun c => c.request.choice) =
      (Draw.sequence (Draw.sides p.highPriorityOdds) calls.length g).mapIdx
        fun k d => (Plan.kindOf (k + 1), decide (d = 0)) := by
  induction h with
  | nil => rfl
  | @cons calls g' h now reply ih =>
      rw [List.reverse_cons, List.map_append, ih, List.length_cons, Draw.sequence_succ,
        List.mapIdx_concat, Draw.length_sequence, ← h.drawn.2, List.map_singleton, Request.choice,
        Plan.kind_request, Plan.highPriority_request, ← Draw.highPriority_flagsOf]
      rfl

end Worker

end StoreSoak
