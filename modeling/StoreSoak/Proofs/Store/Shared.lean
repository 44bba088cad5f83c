import StoreSoak.Proofs.Worker.Calm

/-!
One keyspace that all workers write.

The workers of a plan write nothing but the shared key, and always the same value. So a keyspace
under them is in one of two states, whatever the order of their calls: as at first, or with that
value.

* `Plan.refuses`: whether transactions are refused once the shared key is written. The guard is
  there at first or never, unless it is the shared key itself.
* `Written`: the state of a keyspace.
* `connection_database`, `keyExists_databaseOf`: what else a run asks of an open store.
* `perform_direct`, `perform_of_present`, `perform_of_absent`: what a call of a worker does, given
  whether the guard is there.
* `perform_request`: a call at a keyspace in such a state leaves it in one, and is answered as
  foretold.
-/

namespace StoreSoak

/-- Whether transactions are refused once the shared key is written. -/
def Plan.refuses (p : Plan) (initial : Keyspace) : Bool :=
  initial.contains p.guardKey || decide (p.guardKey = p.sharedKey)

/-- A keyspace under the workers of a plan: as at first, but for the shared key once it is
written. -/
structure Written (p : Plan) (initial k : Keyspace) (written : Prop) : Prop where
  other : ∀ key, key ≠ p.sharedKey → k.get? key = initial.get? key
  shared : written → k.get? p.sharedKey = some p.payload
  unwritten : ¬ written → k.get? p.sharedKey = initial.get? p.sharedKey

section Written

variable {p : Plan} {initial k : Keyspace} {written : Prop}

lemma Written.refl (p : Plan) (initial : Keyspace) : Written p initial initial False :=
  ⟨fun _ _ => rfl, False.elim, fun _ => rfl⟩

lemma Written.congr (h : Written p initial k written) {written' : Prop}
    (hiff : written' ↔ written) : Written p initial k written' :=
  ⟨h.other, fun ht => h.shared (hiff.mp ht), fun ht => h.unwritten fun ht' => ht (hiff.mpr ht')⟩

/-- Writing the shared key. -/
lemma Written.insert (h : Written p initial k written) :
    Written p initial (k.insert p.sharedKey p.payload) True := by
  refine ⟨?_, ?_, fun hn => absurd trivial hn⟩
  · intro key hkey
    rw [Table.get?_insert, if_neg hkey]
    exact h.other key hkey
  · intro _
    rw [Table.get?_insert, if_pos rfl]

/-- Once the shared key is written the guard is there or not for good. -/
lemma Written.contains_guard (h : Written p initial k written) (hw : written) :
    k.contains p.guardKey = p.refuses initial := by
  rw [Plan.refuses]
  by_cases hkey : p.guardKey = p.sharedKey
  · rw [Table.contains, hkey, h.shared hw, decide_eq_true rfl, Bool.or_true]
    rfl
  · rw [Table.contains, h.other _ hkey, decide_eq_false hkey, Bool.or_false]
    rfl

end Written

namespace Memory

/-- An open connection gives its databases. -/
lemma connection_database {m : Memory} (hopen : m.closed = false) (index : ℤ) :
    connection.database index m = .ok (databaseOf index) := by
  show (m.database index).map _ = _
  rw [database, hopen]
  rfl

/-- A look for a key at an open store. -/
lemma keyExists_databaseOf {m : Memory} (hopen : m.closed = false) (index : ℤ) (key : String) :
    (databaseOf index).keyExists key m = (.ok ((m.keyspace index).contains key), m) := by
  show (m.keyExists index key, m) = _
  rw [keyExists, hopen]
  rfl

/-- A set of a worker at an open store writes the shared key. -/
lemma perform_direct {p : Plan} {m : Memory} (index : ℤ) (hopen : m.closed = false) {k : ℕ}
    (hk : k % 2 = 1) (f : Flags) (caller : Caller) (refused : Bool) :
    (p.request k f).perform (databaseOf index) caller m =
      (.answered ((p.request k f).foretold refused),
        m.withKeyspace index ((m.keyspace index).insert p.sharedKey p.payload)) := by
  rw [Plan.request_eq, if_pos hk]
  simp [Request.perform, databaseOf, set, hopen, Reply.ofExcept, Reply.map, Request.foretold,
    Request.isTransaction]

/-- Where the guard is there a transaction of a worker at an open store is refused. -/
lemma perform_of_present {p : Plan} {m : Memory} {index : ℤ} (hopen : m.closed = false)
    (hpresent : (m.keyspace index).contains p.guardKey = true) {k : ℕ} (hk : k % 2 = 0) (f : Flags)
    (caller : Caller) :
    (p.request k f).perform (databaseOf index) caller m =
      (.answered ((p.request k f).foretold true), m.withKeyspace index (m.keyspace index)) := by
  rw [Plan.request_eq, if_neg (by omega)]
  simp [Request.perform, databaseOf, execute, hopen, Transaction.commit, Transaction.holds,
    Condition.holds, Condition.key, hpresent, Reply.ofExcept, Reply.map, Request.foretold,
    Request.isTransaction]

/-- Where the guard is absent a call of a worker at an open store writes the shared key, and no
transaction is refused. -/
lemma perform_of_absent {p : Plan} {m : Memory} {index : ℤ} (hopen : m.closed = false)
    (habsent : (m.keyspace index).contains p.guardKey = false) (k : ℕ) (f : Flags)
    (caller : Caller) :
    (p.request k f).perform (databaseOf index) caller m =
      (.answered ((p.request k f).foretold false),
        m.withKeyspace index ((m.keyspace index).insert p.sharedKey p.payload)) := by
  rcases Nat.mod_two_eq_zero_or_one k with hk | hk
  · rw [Plan.request_eq, if_neg (by omega)]
    simp [Request.perform, databaseOf, execute, hopen, Transaction.commit, Transaction.holds,
      Transaction.apply, Condition.holds, Condition.key, habsent, Reply.ofExcept, Reply.map,
      Request.foretold, Request.isTransaction]
  · exact perform_direct index hopen hk f caller false

/-- A call of a worker at an open store: where a transaction finds the shared key written, the call
is answered as foretold. -/
lemma perform_request {p : Plan} {initial : Keyspace} {m : Memory} {index : ℤ} {written : Prop}
    (h : Written p initial (m.keyspace index) written) (hopen : m.closed = false) (k : ℕ)
    (f : Flags) (hwritten : k % 2 = 0 → written) (caller : Caller) :
    ∃ m', (p.request k f).perform (databaseOf index) caller m =
        (.answered ((p.request k f).foretold (p.refuses initial)), m') ∧
      m'.closed = false ∧ Written p initial (m'.keyspace index) True := by
  have hinsert : Written p initial ((m.withKeyspace index
      ((m.keyspace index).insert p.sharedKey p.payload)).keyspace index) True := by
    rw [keyspace_withKeyspace, if_pos rfl]
    exact h.insert
  rcases Nat.mod_two_eq_zero_or_one k with hk | hk
  · -- a transaction: it is refused when the guard is there
    have hguard := h.contains_guard (hwritten hk)
    cases hrefuses : p.refuses initial with
    | true =>
        rw [hrefuses] at hguard
        refine ⟨_, perform_of_present hopen hguard hk f caller, hopen, ?_⟩
        rw [keyspace_withKeyspace, if_pos rfl]
        exact h.congr ⟨fun _ => hwritten hk, fun _ => trivial⟩
    | false =>
        rw [hrefuses] at hguard
        exact ⟨_, perform_of_absent hopen hguard k f caller, hopen, hinsert⟩
  · exact ⟨_, perform_direct index hopen hk f caller _, hopen, hinsert⟩

end Memory

end StoreSoak
