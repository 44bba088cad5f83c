import Mathlib.Tactic
import StoreSoak.Store.Session

/-!
The store inside the process as one flat map.

A `Place` is a key of a database of a connection. A `Journal` is what a session with such stores
comes to when it is told by its writes: a row of values with their places, the last one first, and
the connections that are closed. There are no keyspaces in it and no order of anything but the
writes; a read finds the last value written to its place.

* `Journal.step` answers the steps of a session, `Journal.meets` judges the conditions of a
  transaction.
* `Reflects`: a session and a journal that stand for the same. `Reflects.read`, `Reflects.write`:
  calls that only read and calls that leave another keyspace. `Reflects.step`: every step keeps
  this and is answered by both alike.
* `Session.step_of_closed`, `Reflects.held_step`: a closed connection refuses every call and stays
  as it is, and a step leaves all places alone but those of its own accessor.
* `session_reflects_journal` says it of every row of steps.
-/

namespace StoreSoak

/-- A key of a database of a connection. -/
structure Place where
  connection : ℕ
  index : ℤ
  key : String
  deriving DecidableEq

/-- The place of a key that an accessor finds. -/
def Accessor.place (a : Accessor) (key : String) : Place :=
  ⟨a.connection, a.index, key⟩

/-- Values with the places to which they were written, the last one first. -/
abbrev Writes := List (Place × String)

/-- The last value written to a place. -/
def Writes.last (ws : Writes) (p : Place) : Option String :=
  (ws.find? fun w => w.1 = p).map Prod.snd

/-- A session told by its writes. -/
structure Journal where
  writes : Writes
  /-- The number of connections opened so far. -/
  opened : ℕ
  /-- The connections that were closed. -/
  closed : List ℕ
  connections : Table String (ℕ × ConnectOptions)
  accessors : Table String Accessor

namespace Journal

/-- Nothing written yet. -/
def start : Journal := ⟨[], 0, [], Table.empty, Table.empty⟩

/-- The value at a place. -/
def value (j : Journal) (p : Place) : Option String :=
  j.writes.last p

/-- A call through an accessor; on a closed connection it fails and changes nothing. -/
def call (j : Journal) (name : String) (f : Accessor → Session.Answer × Writes) :
    Session.Answer × Journal :=
  match j.accessors.get? name with
  | none => (.unknownName, j)
  | some a =>
    if a.connection ∈ j.closed then (.failed (.connection "connection is closed"), j)
    else ((f a).1, { j with writes := (f a).2 ++ j.writes })

/-- Whether a condition of a transaction is met by the values: a key that has to exist has one at its
place, a key that has to be absent has none. -/
def meets (j : Journal) (a : Accessor) : Condition → Bool
  | .exists key => (j.value (a.place key)).isSome
  | .absent key => (j.value (a.place key)).isNone

/-- One step: its answer, and the journal after it. The connection that a name stands for is open,
so that to ask for a database or to close it succeeds. -/
def step (j : Journal) : Session.Step → Session.Answer × Journal
  | .connect name options =>
    (.opened options,
      { j with
        opened := j.opened + 1
        connections := j.connections.insert name (j.opened, options) })
  | .database name connection index =>
    match j.connections.get? connection with
    | none => (.unknownName, j)
    | some (c, _) => (.index index, { j with accessors := j.accessors.insert name ⟨c, index⟩ })
  | .clone name source =>
    match j.accessors.get? source with
    | none => (.unknownName, j)
    | some a => (.index a.index, { j with accessors := j.accessors.insert name a })
  | .close name =>
    match j.connections.get? name with
    | none => (.unknownName, j)
    | some (c, _) =>
      (.closed, { j with closed := c :: j.closed, connections := j.connections.erase name })
  | .set name key value _ => j.call name fun a =>
    (.value (j.value (a.place key)), [(a.place key, value)])
  | .get name key => j.call name fun a => (.value (j.value (a.place key)), [])
  | .keyExists name key => j.call name fun a => (.truth (j.value (a.place key)).isSome, [])
  | .execute name t => j.call name fun a =>
    if t.conditions.all (j.meets a) then
      (.truth true, (t.writes.map fun w => (a.place w.key, w.value)).reverse)
    else (.truth false, [])

/-- The answers to the steps in order, and the journal after them. -/
def run (j : Journal) : List Session.Step → List Session.Answer × Journal
  | [] => ([], j)
  | p :: rest =>
    let r := j.step p
    let q := run r.2 rest
    (r.1 :: q.1, q.2)

end Journal

/-! ### Writes -/

namespace Writes

lemma last_cons (p q : Place) (v : String) (ws : Writes) :
    last ((p, v) :: ws) q = if q = p then some v else ws.last q := by
  by_cases h : q = p
  · simp [last, h]
  · rw [if_neg h, last, List.find?_cons_of_neg (by simpa using fun hp => h hp.symm)]
    rfl

/-- Writes to other places make no difference to a place. -/
lemma last_append_of_ne {new ws : Writes} {p : Place} (h : ∀ w ∈ new, w.1 ≠ p) :
    last (new ++ ws) p = ws.last p := by
  have hnone : new.find? (fun w => w.1 = p) = none :=
    List.find?_eq_none.mpr fun w hw => by simpa using h w hw
  rw [last, List.find?_append, hnone]
  rfl

/-- The writes of a transaction come to the same in a keyspace, one after the other, and in front of
the writes before them. -/
lemma get?_foldl_insert (a : Accessor) (staged : List Write) {k : Keyspace} {ws : Writes}
    (h : ∀ key, k.get? key = ws.last (a.place key)) (key : String) :
    (staged.foldl (fun k w => k.insert w.key w.value) k).get? key =
      last ((staged.map fun w => (a.place w.key, w.value)).reverse ++ ws) (a.place key) := by
  induction staged generalizing k ws with
  | nil => exact h key
  | cons w staged ih =>
      have hone (key : String) : (k.insert w.key w.value).get? key =
          last ((a.place w.key, w.value) :: ws) (a.place key) := by
        have hplace : a.place key = a.place w.key ↔ key = w.key := by simp [Accessor.place]
        rw [Table.get?_insert, last_cons, h]
        simp only [hplace]
      rw [List.foldl_cons, ih hone, List.map_cons, List.reverse_cons, List.append_assoc,
        List.singleton_append]

end Writes

/-! ### Sessions -/

namespace Session

/-- The value that a session holds at a place. -/
def held (s : Session) (p : Place) : Option String :=
  ((s.store p.connection).keyspace p.index).get? p.key

/-- Whether a step is a call through the accessor of the given name. -/
def Step.Through (name : String) : Step → Prop
  | .set n _ _ _ => n = name
  | .get n _ => n = name
  | .keyExists n _ => n = name
  | .execute n _ => n = name
  | _ => False

lemma store_withStore (s : Session) (c d : ℕ) (m : Memory) :
    (s.withStore c m).store d = if d = c ∧ c < s.stores.length then m else s.store d := by
  rw [store, withStore, store, List.getD_eq_getElem?_getD, List.getElem?_set,
    List.getD_eq_getElem?_getD]
  by_cases hdc : c = d
  · subst hdc
    by_cases hlt : c < s.stores.length
    · simp [hlt]
    · simp [hlt]
  · rw [if_neg hdc, if_neg fun h => hdc h.1.symm]

/-- To put back what is there changes nothing. -/
lemma withStore_store (s : Session) (c : ℕ) : s.withStore c (s.store c) = s := by
  have hsame : s.stores.set c (s.stores.getD c Memory.fresh) = s.stores := by
    refine List.ext_getElem? fun d => ?_
    rw [List.getElem?_set, List.getD_eq_getElem?_getD]
    split
    · rename_i hcd
      subst hcd
      split
      · rename_i hlt
        rw [List.getElem?_eq_getElem hlt, Option.getD_some]
      · rename_i hge
        rw [List.getElem?_eq_none (Nat.not_lt.mp hge)]
    · rfl
  rw [withStore, store, hsame]

/-- A connection that was just opened holds nothing, as if it had not been opened. -/
lemma store_append_fresh (s : Session) (c : ℕ) (connections : Table String (ℕ × ConnectOptions)) :
    Session.store { s with stores := s.stores ++ [Memory.fresh], connections } c = s.store c := by
  rw [store, store, List.getD_eq_getElem?_getD, List.getD_eq_getElem?_getD, List.getElem?_append]
  split
  · rfl
  · rename_i hge
    rw [List.getElem?_eq_none (Nat.not_lt.mp hge)]
    cases c - s.stores.length <;> rfl

/-- A closed connection refuses every call through every accessor, and nothing is changed by it. -/
lemma step_of_closed {s : Session} {name : String} {a : Accessor}
    (ha : s.accessors.get? name = some a) (hclosed : (s.store a.connection).closed = true)
    {p : Step} (hp : p.Through name) :
    s.step p = (.failed (.connection "connection is closed"), s) := by
  cases p <;> cases hp <;>
    simp [step, call, ha, Memory.set, Memory.get, Memory.keyExists, Memory.execute, hclosed,
      withStore_store, Answer.ofCall, Memory.closedError]

/-- A name that stands for no accessor is refused. -/
lemma step_of_unknown {s : Session} {name : String} (hnone : s.accessors.get? name = none)
    {p : Step} (hp : p.Through name) : s.step p = (.unknownName, s) := by
  cases p <;> cases hp <;> simp [step, call, hnone]

end Session

namespace Journal

lemma step_of_closed {j : Journal} {name : String} {a : Accessor}
    (ha : j.accessors.get? name = some a) (hclosed : a.connection ∈ j.closed)
    {p : Session.Step} (hp : p.Through name) :
    j.step p = (.failed (.connection "connection is closed"), j) := by
  cases p <;> cases hp <;> simp [step, call, ha, hclosed]

lemma step_of_unknown {j : Journal} {name : String} (hnone : j.accessors.get? name = none)
    {p : Session.Step} (hp : p.Through name) : j.step p = (.unknownName, j) := by
  cases p <;> cases hp <;> simp [step, call, hnone]

/-- Whether a step can write to a place: it is one of its own accessor, whose connection is open. -/
def Reaches (j : Journal) (p : Session.Step) (place : Place) : Prop :=
  ∃ name a, p.Through name ∧ j.accessors.get? name = some a ∧ a.connection ∉ j.closed ∧
    place = a.place place.key

/-- A call writes only to places of its accessor. -/
lemma writes_call (j : Journal) (p : Session.Step) (name : String) (hp : p.Through name)
    {f : Accessor → Session.Answer × Writes}
    (hf : ∀ a, ∀ w ∈ (f a).2, ∃ key, w.1 = a.place key) :
    ∃ new, (j.call name f).2.writes = new ++ j.writes ∧ ∀ w ∈ new, j.Reaches p w.1 := by
  rw [call]
  cases ha : j.accessors.get? name with
  | none => exact ⟨[], rfl, fun _ hw => absurd hw List.not_mem_nil⟩
  | some a =>
      dsimp only
      split
      · exact ⟨[], rfl, fun _ hw => absurd hw List.not_mem_nil⟩
      · rename_i hopen
        refine ⟨(f a).2, rfl, fun w hw => ?_⟩
        obtain ⟨key, hkey⟩ := hf a w hw
        exact ⟨name, a, hp, ha, hopen, by rw [hkey]; rfl⟩

/-- A step writes only where it reaches. -/
lemma writes_step (j : Journal) (p : Session.Step) :
    ∃ new, (j.step p).2.writes = new ++ j.writes ∧ ∀ w ∈ new, j.Reaches p w.1 := by
  -- names and connections are no writes
  have hsilent (hsame : (j.step p).2.writes = j.writes) :
      ∃ new, (j.step p).2.writes = new ++ j.writes ∧ ∀ w ∈ new, j.Reaches p w.1 :=
    ⟨[], hsame, fun _ hw => absurd hw List.not_mem_nil⟩
  cases p with
  | set name key value flags =>
      refine j.writes_call (.set name key value flags) name rfl fun a w hw => ?_
      exact ⟨key, by rw [List.mem_singleton.mp hw]⟩
  | get name key =>
      exact j.writes_call (.get name key) name rfl fun a w hw => absurd hw List.not_mem_nil
  | keyExists name key =>
      exact j.writes_call (.keyExists name key) name rfl fun a w hw => absurd hw List.not_mem_nil
  | execute name t =>
      refine j.writes_call (.execute name t) name rfl fun a w hw => ?_
      split at hw
      · obtain ⟨staged, -, rfl⟩ := List.mem_map.mp (List.mem_reverse.mp hw)
        exact ⟨staged.key, rfl⟩
      · exact absurd hw List.not_mem_nil
  | connect => exact hsilent rfl
  | database name connection index =>
      refine hsilent ?_
      rw [step]
      split <;> rfl
  | clone name source =>
      refine hsilent ?_
      rw [step]
      split <;> rfl
  | close name =>
      refine hsilent ?_
      rw [step]
      split <;> rfl

end Journal

/-- A session and a journal that stand for the same. -/
structure Reflects (s : Session) (j : Journal) : Prop where
  opened : j.opened = s.stores.length
  connections : j.connections = s.connections
  accessors : j.accessors = s.accessors
  value : ∀ p, s.held p = j.value p
  closed : ∀ c, (s.store c).closed = decide (c ∈ j.closed)
  /-- An accessor belongs to a connection that was opened. -/
  known : ∀ name a, s.accessors.get? name = some a → a.connection < s.stores.length
  /-- A connection that has a name was opened and is not closed. -/
  named : ∀ name c options, s.connections.get? name = some (c, options) →
    c < s.stores.length ∧ c ∉ j.closed
  /-- It has no other name. -/
  unique : ∀ name name' c options options', s.connections.get? name = some (c, options) →
    s.connections.get? name' = some (c, options') → name = name'

section Reflects

variable {s : Session} {j : Journal}

lemma Reflects.start : Reflects Session.start Journal.start := by
  refine ⟨rfl, rfl, rfl, fun p => rfl, fun c => rfl, ?_, ?_, ?_⟩
  · intro name a h
    cases h
  · intro name c options h
    cases h
  · intro name name' c options options' h
    cases h

/-- The content of one connection is replaced, by writes to its places. -/
lemma Reflects.withStore (h : Reflects s j) {a : Accessor} (hlt : a.connection < s.stores.length)
    {m : Memory} {new : Writes} (hclosed : m.closed = (s.store a.connection).closed)
    (hother : ∀ i, i ≠ a.index → m.keyspace i = (s.store a.connection).keyspace i)
    (hnew : ∀ w ∈ new, ∃ key, w.1 = a.place key)
    (hvalue : ∀ key, (m.keyspace a.index).get? key = (new ++ j.writes).last (a.place key)) :
    Reflects (s.withStore a.connection m) { j with writes := new ++ j.writes } := by
  have hsize : (s.withStore a.connection m).stores.length = s.stores.length := List.length_set
  refine ⟨h.opened.trans hsize.symm, h.connections, h.accessors, ?_, ?_, ?_, ?_, h.unique⟩
  · intro p
    rw [Session.held, Session.store_withStore]
    by_cases hplace : p.connection = a.connection ∧ p.index = a.index
    · have hp : p = a.place p.key := by
        rw [Accessor.place, ← hplace.1, ← hplace.2]
      rw [if_pos ⟨hplace.1, hlt⟩, hplace.2, hvalue, ← hp]
      rfl
    · -- no write goes there
      have hne : ∀ w ∈ new, w.1 ≠ p := by
        intro w hw hp
        obtain ⟨key, hkey⟩ := hnew w hw
        rw [hp] at hkey
        rw [hkey] at hplace
        exact hplace ⟨rfl, rfl⟩
      have hbefore := h.value p
      rw [Journal.value, Writes.last_append_of_ne hne, ← Journal.value, ← hbefore, Session.held]
      split
      · rename_i hc
        have hindex : p.index ≠ a.index := fun hi => hplace ⟨hc.1, hi⟩
        rw [hother _ hindex, hc.1]
      · rfl
  · intro c
    rw [Session.store_withStore]
    split
    · rename_i hc
      rw [hclosed, ← hc.1]
      exact h.closed c
    · exact h.closed c
  · rw [hsize]
    exact h.known
  · rw [hsize]
    exact h.named

/-- A call through an accessor of an open connection, which is answered alike on both sides and
whose effect is that of the writes. -/
lemma Reflects.call (h : Reflects s j) {name : String} {a : Accessor}
    (ha : s.accessors.get? name = some a) (hopen : (s.store a.connection).closed = false)
    {f : Memory → ℤ → Session.Answer × Memory} {f' : Accessor → Session.Answer × Writes}
    (hanswer : (f (s.store a.connection) a.index).1 = (f' a).1)
    (hclosed : (f (s.store a.connection) a.index).2.closed = false)
    (hother : ∀ i, i ≠ a.index →
      (f (s.store a.connection) a.index).2.keyspace i = (s.store a.connection).keyspace i)
    (hnew : ∀ w ∈ (f' a).2, ∃ key, w.1 = a.place key)
    (hvalue : ∀ key, ((f (s.store a.connection) a.index).2.keyspace a.index).get? key =
      Writes.last ((f' a).2 ++ j.writes) (a.place key)) :
    (s.call name f).1 = (j.call name f').1 ∧ Reflects (s.call name f).2 (j.call name f').2 := by
  -- the journal knows the connection as open, as the store is
  have hnot : a.connection ∉ j.closed := by
    have hc := h.closed a.connection
    rw [hopen] at hc
    exact of_decide_eq_false hc.symm
  have ha' : j.accessors.get? name = some a := by
    rw [h.accessors]
    exact ha
  have hs : s.call name f = ((f (s.store a.connection) a.index).1,
      s.withStore a.connection (f (s.store a.connection) a.index).2) := by
    rw [Session.call, ha]
  have hj : j.call name f' = ((f' a).1, { j with writes := (f' a).2 ++ j.writes }) := by
    rw [Journal.call, ha']
    dsimp only
    rw [if_neg hnot]
  rw [hs, hj]
  exact ⟨hanswer,
    h.withStore (h.known name a ha) (hclosed.trans hopen.symm) hother hnew hvalue⟩

/-- A call that only reads. -/
lemma Reflects.read (h : Reflects s j) {name : String} {a : Accessor}
    (ha : s.accessors.get? name = some a) (hopen : (s.store a.connection).closed = false)
    {f : Memory → ℤ → Session.Answer} {f' : Accessor → Session.Answer}
    (hanswer : f (s.store a.connection) a.index = f' a) :
    (s.call name fun m i => (f m i, m)).1 = (j.call name fun a => (f' a, [])).1 ∧
      Reflects (s.call name fun m i => (f m i, m)).2 (j.call name fun a => (f' a, [])).2 :=
  h.call ha hopen hanswer hopen (fun _ _ => rfl) (fun _ hw => absurd hw List.not_mem_nil)
    fun key => h.value (a.place key)

/-- A call that leaves another keyspace in its database, the one that the writes make of it. The
other databases of the connection are untouched. -/
lemma Reflects.write (h : Reflects s j) {name : String} {a : Accessor}
    (ha : s.accessors.get? name = some a) (hopen : (s.store a.connection).closed = false)
    {f : Memory → ℤ → Session.Answer × Memory} {f' : Accessor → Session.Answer × Writes}
    (k : Keyspace)
    (heffect : f (s.store a.connection) a.index =
      ((f' a).1, (s.store a.connection).withKeyspace a.index k))
    (hnew : ∀ w ∈ (f' a).2, ∃ key, w.1 = a.place key)
    (hvalue : ∀ key, k.get? key = Writes.last ((f' a).2 ++ j.writes) (a.place key)) :
    (s.call name f).1 = (j.call name f').1 ∧ Reflects (s.call name f).2 (j.call name f').2 := by
  refine h.call ha hopen ?_ ?_ ?_ hnew ?_
  · rw [heffect]
  · rw [heffect]
    exact hopen
  · intro i hi
    rw [heffect, Memory.keyspace_withKeyspace, if_neg hi]
  · intro key
    rw [heffect, Memory.keyspace_withKeyspace, if_pos rfl]
    exact hvalue key

/-- A value written directly. -/
lemma Reflects.set (h : Reflects s j) {name : String} {a : Accessor}
    (ha : s.accessors.get? name = some a) (hopen : (s.store a.connection).closed = false)
    (key value : String) (flags : Flags) :
    (s.step (.set name key value flags)).1 = (j.step (.set name key value flags)).1 ∧
      Reflects (s.step (.set name key value flags)).2 (j.step (.set name key value flags)).2 := by
  have hvalue (key : String) :
      ((s.store a.connection).keyspace a.index).get? key = j.value (a.place key) :=
    h.value (a.place key)
  have hset : (s.store a.connection).set a.index key value flags =
      (.ok (((s.store a.connection).keyspace a.index).get? key),
        (s.store a.connection).withKeyspace a.index
          (((s.store a.connection).keyspace a.index).insert key value)) := by
    rw [Memory.set, hopen]
    rfl
  refine h.write ha hopen (((s.store a.connection).keyspace a.index).insert key value) ?_ ?_ ?_
  · rw [hset, hvalue]
    rfl
  · intro w hw
    rw [List.mem_singleton.mp hw]
    exact ⟨key, rfl⟩
  · exact Writes.get?_foldl_insert a [⟨key, value, flags⟩] hvalue

/-- The conditions of a transaction hold in the keyspace if the journal meets them. -/
lemma Reflects.holds (h : Reflects s j) (a : Accessor) (t : Transaction) :
    t.holds ((s.store a.connection).keyspace a.index) = t.conditions.all (j.meets a) := by
  have hvalue (key : String) :
      ((s.store a.connection).keyspace a.index).get? key = j.value (a.place key) :=
    h.value (a.place key)
  rw [Transaction.holds]
  congr 1
  funext c
  cases c with
  | «exists» key => rw [Condition.key, Condition.holds, Table.contains, hvalue, Journal.meets]
  | absent key =>
      rw [Condition.key, Condition.holds, Table.contains, hvalue, Journal.meets,
        Option.not_isSome]

/-- A transaction, committed or not. -/
lemma Reflects.execute (h : Reflects s j) {name : String} {a : Accessor}
    (ha : s.accessors.get? name = some a) (hopen : (s.store a.connection).closed = false)
    (t : Transaction) :
    (s.step (.execute name t)).1 = (j.step (.execute name t)).1 ∧
      Reflects (s.step (.execute name t)).2 (j.step (.execute name t)).2 := by
  have hvalue (key : String) :
      ((s.store a.connection).keyspace a.index).get? key = j.value (a.place key) :=
    h.value (a.place key)
  have hholds := h.holds a t
  by_cases hmet : t.conditions.all (j.meets a) = true
  · have hexecute : (s.store a.connection).execute a.index t =
        (.ok true, (s.store a.connection).withKeyspace a.index
          (t.apply ((s.store a.connection).keyspace a.index))) := by
      rw [Memory.execute, hopen, Transaction.commit, hholds, hmet]
      rfl
    refine h.write ha hopen (t.apply ((s.store a.connection).keyspace a.index)) ?_ ?_ ?_
    · rw [hexecute, if_pos hmet]
      rfl
    · rw [if_pos hmet]
      intro w hw
      obtain ⟨staged, -, rfl⟩ := List.mem_map.mp (List.mem_reverse.mp hw)
      exact ⟨staged.key, rfl⟩
    · rw [if_pos hmet]
      exact Writes.get?_foldl_insert a t.writes hvalue
  · -- the keyspace is put back as it was, although the call writes it
    have hexecute : (s.store a.connection).execute a.index t =
        (.ok false, (s.store a.connection).withKeyspace a.index
          ((s.store a.connection).keyspace a.index)) := by
      rw [Memory.execute, hopen, Transaction.commit, hholds, if_neg hmet]
      rfl
    refine h.write ha hopen ((s.store a.connection).keyspace a.index) ?_ ?_ ?_
    · rw [hexecute, if_neg hmet]
      rfl
    · rw [if_neg hmet]
      exact fun w hw => absurd hw List.not_mem_nil
    · rw [if_neg hmet]
      exact hvalue

/-- Calls on an open connection are answered alike. -/
lemma Reflects.step_through (h : Reflects s j) {name : String} {a : Accessor}
    (ha : s.accessors.get? name = some a) (hopen : (s.store a.connection).closed = false)
    {p : Session.Step} (hp : p.Through name) :
    (s.step p).1 = (j.step p).1 ∧ Reflects (s.step p).2 (j.step p).2 := by
  have hvalue (key : String) :
      ((s.store a.connection).keyspace a.index).get? key = j.value (a.place key) :=
    h.value (a.place key)
  cases p with
  | get n key =>
      cases hp
      refine h.read ha hopen ?_
      rw [Memory.get, hopen, hvalue]
      rfl
  | keyExists n key =>
      cases hp
      refine h.read ha hopen ?_
      rw [Memory.keyExists, hopen, Table.contains, hvalue]
      rfl
  | set n key value flags =>
      cases hp
      exact h.set ha hopen key value flags
  | execute n t =>
      cases hp
      exact h.execute ha hopen t
  | connect => exact hp.elim
  | database => exact hp.elim
  | clone => exact hp.elim
  | close => exact hp.elim

/-- A new connection holds nothing, and its name stands for it alone. -/
lemma Reflects.connect (h : Reflects s j) (name : String) (options : ConnectOptions) :
    Reflects (s.step (.connect name options)).2 (j.step (.connect name options)).2 := by
  have hstore (c : ℕ) : (s.step (.connect name options)).2.store c = s.store c :=
    s.store_append_fresh c _
  have hsize : (s.step (.connect name options)).2.stores.length = s.stores.length + 1 := by
    rw [Session.step, List.length_append, List.length_singleton]
  have hget (n : String) : (s.step (.connect name options)).2.connections.get? n =
      if n = name then some (s.stores.length, options) else s.connections.get? n :=
    Table.get?_insert ..
  -- the number of the new connection was not in use
  have hfresh : s.stores.length ∉ j.closed := by
    have hc := h.closed s.stores.length
    rw [Session.store, List.getD_eq_getElem?_getD, List.getElem?_eq_none le_rfl] at hc
    exact of_decide_eq_false hc.symm
  have hnew {n : String} {c : ℕ} {o : ConnectOptions}
      (hn : s.connections.get? n = some (c, o)) : c ≠ s.stores.length :=
    (h.named n c o hn).1.ne
  refine ⟨?_, ?_, h.accessors, ?_, ?_, ?_, ?_, ?_⟩
  · rw [hsize, ← h.opened]
    rfl
  · rw [Session.step, Journal.step, h.opened, h.connections]
  · intro p
    rw [Session.held, hstore]
    exact h.value p
  · intro c
    rw [hstore]
    exact h.closed c
  · intro n a ha
    rw [hsize]
    exact Nat.lt_succ_of_lt (h.known n a ha)
  · intro n c o hn
    rw [hget] at hn
    rw [hsize]
    split at hn
    · cases hn
      exact ⟨Nat.lt_succ_self _, hfresh⟩
    · obtain ⟨hlt, hopen⟩ := h.named n c o hn
      exact ⟨Nat.lt_succ_of_lt hlt, hopen⟩
  · intro n n' c o o' hn hn'
    rw [hget] at hn hn'
    split at hn <;> split at hn'
    · rename_i hl hr
      rw [hl, hr]
    · cases hn
      exact absurd rfl (hnew hn')
    · cases hn'
      exact absurd rfl (hnew hn)
    · exact h.unique n n' c o o' hn hn'

/-- An accessor of an open connection gets one more name. -/
lemma Reflects.accessor (h : Reflects s j) (name : String) {a : Accessor}
    (ha : a.connection < s.stores.length) :
    Reflects { s with accessors := s.accessors.insert name a }
      { j with accessors := j.accessors.insert name a } := by
  refine ⟨h.opened, h.connections, ?_, h.value, h.closed, ?_, h.named, h.unique⟩
  · rw [h.accessors]
  · intro n b hb
    rw [Table.get?_insert] at hb
    split at hb
    · cases hb
      exact ha
    · exact h.known n b hb

/-- Closing a connection leaves every value where it is, and takes the name away. -/
lemma Reflects.close (h : Reflects s j) {name : String} {c : ℕ} {options : ConnectOptions}
    (hname : s.connections.get? name = some (c, options)) :
    Reflects
      { s.withStore c { s.store c with closed := true } with
        connections := s.connections.erase name }
      { j with closed := c :: j.closed, connections := j.connections.erase name } := by
  have hlt : c < s.stores.length := (h.named name c options hname).1
  have hstore (d : ℕ) : Session.store { s.withStore c { s.store c with closed := true } with
      connections := s.connections.erase name } d =
        if d = c then { s.store c with closed := true } else s.store d := by
    have hput := s.store_withStore c d { s.store c with closed := true }
    simp only [hlt, and_true] at hput
    exact hput
  have hsize : (s.withStore c { s.store c with closed := true }).stores.length =
      s.stores.length := List.length_set
  -- what has a name still has it as its only one, so it is not what was closed
  have hkept {n : String} {d : ℕ} {o : ConnectOptions}
      (hn : (s.connections.erase name).get? n = some (d, o)) :
      s.connections.get? n = some (d, o) ∧ d ≠ c := by
    rw [Table.get?_erase] at hn
    split at hn
    · cases hn
    · rename_i hne
      refine ⟨hn, ?_⟩
      rintro rfl
      exact hne (h.unique n name d o options hn hname)
  refine ⟨h.opened.trans hsize.symm, ?_, h.accessors, ?_, ?_, ?_, ?_, ?_⟩
  · rw [h.connections]
  · intro p
    rw [Session.held, hstore]
    have hbefore := h.value p
    rw [Session.held] at hbefore
    split
    · rename_i hp
      rw [hp] at hbefore
      exact hbefore
    · exact hbefore
  · intro d
    rw [hstore]
    split
    · rename_i hd
      simp [hd]
    · rename_i hd
      simp [hd, h.closed d]
  · intro n a ha
    exact (h.known n a ha).trans_eq hsize.symm
  · intro n d o hn
    obtain ⟨hn, hd⟩ := hkept hn
    obtain ⟨hlt, hopen⟩ := h.named n d o hn
    exact ⟨hlt.trans_eq hsize.symm, fun hmem => (List.mem_cons.mp hmem).elim hd hopen⟩
  · intro n n' d o o' hn hn'
    exact h.unique n n' d o o' (hkept hn).1 (hkept hn').1

/-- Every step is answered by both alike and leaves them standing for the same. -/
theorem Reflects.step (h : Reflects s j) (p : Session.Step) :
    (s.step p).1 = (j.step p).1 ∧ Reflects (s.step p).2 (j.step p).2 := by
  -- all calls through an accessor are one case
  have hcall (name : String) (hp : p.Through name) :
      (s.step p).1 = (j.step p).1 ∧ Reflects (s.step p).2 (j.step p).2 := by
    cases ha : s.accessors.get? name with
    | none =>
        rw [Session.step_of_unknown ha hp, Journal.step_of_unknown (h.accessors ▸ ha) hp]
        exact ⟨rfl, h⟩
    | some a =>
        have hclosed := h.closed a.connection
        cases hopen : (s.store a.connection).closed with
        | false => exact h.step_through ha hopen hp
        | true =>
            rw [hopen] at hclosed
            rw [Session.step_of_closed ha hopen hp,
              Journal.step_of_closed (h.accessors ▸ ha) (of_decide_eq_true hclosed.symm) hp]
            exact ⟨rfl, h⟩
  cases p with
  | set name => exact hcall name rfl
  | get name => exact hcall name rfl
  | keyExists name => exact hcall name rfl
  | execute name => exact hcall name rfl
  | connect name options => exact ⟨rfl, h.connect name options⟩
  | clone name source =>
      have hsame : j.accessors.get? source = s.accessors.get? source := by rw [h.accessors]
      rw [Session.step, Journal.step, hsame]
      cases ha : s.accessors.get? source with
      | none => exact ⟨rfl, h⟩
      | some a => exact ⟨rfl, h.accessor name (h.known source a ha)⟩
  | database name connection index =>
      have hsame : j.connections.get? connection = s.connections.get? connection := by
        rw [h.connections]
      rw [Session.step, Journal.step, hsame]
      cases hc : s.connections.get? connection with
      | none => exact ⟨rfl, h⟩
      | some r =>
          obtain ⟨hlt, hopen⟩ := h.named connection r.1 r.2 hc
          have hdatabase : (s.store r.1).database index = .ok () := by
            rw [Memory.database, h.closed, decide_eq_false hopen]
            rfl
          simp only [hdatabase]
          exact ⟨trivial, h.accessor name (a := ⟨r.1, index⟩) hlt⟩
  | close name =>
      have hsame : j.connections.get? name = s.connections.get? name := by rw [h.connections]
      rw [Session.step, Journal.step, hsame]
      cases hc : s.connections.get? name with
      | none => exact ⟨rfl, h⟩
      | some r =>
          have hopen := (h.named name r.1 r.2 hc).2
          have hclose : (s.store r.1).close =
              (.ok (), { s.store r.1 with closed := true }) := by
            rw [Memory.close, h.closed, decide_eq_false hopen]
            rfl
          simp only [hclose]
          exact ⟨rfl, h.close hc⟩

/-- The same for a row of steps. -/
theorem Reflects.run (h : Reflects s j) (steps : List Session.Step) :
    (s.run steps).1 = (j.run steps).1 ∧ Reflects (s.run steps).2 (j.run steps).2 := by
  induction steps generalizing s j with
  | nil => exact ⟨rfl, h⟩
  | cons p rest ih =>
      obtain ⟨hanswer, hafter⟩ := h.step p
      obtain ⟨hanswers, hend⟩ := ih hafter
      exact ⟨congrArg₂ List.cons hanswer hanswers, hend⟩

/-- Whatever a step changes is a place of its own accessor, whose connection is open. -/
lemma Reflects.held_step (h : Reflects s j) {p : Session.Step} {place : Place}
    (hchanged : (s.step p).2.held place ≠ s.held place) :
    ∃ name a, p.Through name ∧ s.accessors.get? name = some a ∧
      (s.store a.connection).closed = false ∧ place = a.place place.key := by
  obtain ⟨new, hnew, hplaces⟩ := j.writes_step p
  have hwritten : ∃ w ∈ new, w.1 = place := by
    by_contra hnone
    push Not at hnone
    apply hchanged
    rw [(h.step p).2.value, h.value, Journal.value, hnew, Writes.last_append_of_ne hnone]
    rfl
  obtain ⟨w, hw, rfl⟩ := hwritten
  obtain ⟨name, a, hthrough, ha, hopen, hplace⟩ := hplaces w hw
  refine ⟨name, a, hthrough, h.accessors ▸ ha, ?_, hplace⟩
  rw [h.closed, decide_eq_false hopen]

end Reflects

/-- Stores inside the process, used through any names in any order, are one flat map from connection,
index and key to values. Every step is answered as the journal answers it: a read with the last
value written to its place, a transaction by its conditions on the values before it. What a session
holds is what the journal has last. A closed connection refuses every call through every accessor,
and the session stays as it is; and whatever a step changes is a place of its own accessor, whose
connection is open. -/
theorem session_reflects_journal (steps : List Session.Step) :
    let s := (Session.start.run steps).2
    let j := (Journal.start.run steps).2
    (Session.start.run steps).1 = (Journal.start.run steps).1 ∧
      (∀ place, s.held place = j.value place) ∧
      (∀ c, (s.store c).closed = true ↔ c ∈ j.closed) ∧
      (∀ name a p, s.accessors.get? name = some a → (s.store a.connection).closed = true →
        p.Through name → s.step p = (.failed (.connection "connection is closed"), s)) ∧
      ∀ p place, (s.step p).2.held place ≠ s.held place →
        ∃ name a, p.Through name ∧ s.accessors.get? name = some a ∧
          (s.store a.connection).closed = false ∧ place = a.place place.key := by
  intro s j
  obtain ⟨hanswers, hend⟩ := Reflects.start.run steps
  refine ⟨hanswers, hend.value, fun c => ?_, ?_, fun p place => hend.held_step⟩
  · rw [hend.closed, decide_eq_true_iff]
  · exact fun name a p ha hclosed hp => Session.step_of_closed ha hclosed hp

/-- A transaction commits on the key that is there and another one, through a clone of the accessor,
does not; after the close what was committed is still held, and the clone is refused. -/
theorem session_reflects_journal_after_close :
    let steps : List Session.Step := [.connect "m" .default, .database "a" "m" 0, .clone "b" "a",
      .set "a" "k" "v" Flags.none,
      .execute "a" ⟨[.exists "k", .absent "g"], [⟨"k", "w", Flags.none⟩, ⟨"l", "x", Flags.none⟩]⟩,
      .execute "b" ⟨[.exists "k", .absent "l"], [⟨"k", "y", Flags.none⟩]⟩, .close "m"]
    let s := (Session.start.run steps).2
    (Session.start.run steps).1 = [.opened .default, .index 0, .index 0, .value none, .truth true,
        .truth false, .closed] ∧
      s.accessors.get? "b" = some ⟨0, 0⟩ ∧ (s.store 0).closed = true ∧
      s.held ⟨0, 0, "k"⟩ = some "w" ∧ s.held ⟨0, 0, "l"⟩ = some "x" ∧
      s.step (.get "b" "k") = (.failed (.connection "connection is closed"), s) := by
  intro steps s
  obtain ⟨hanswers, hheld, -, hrefused, -⟩ := session_reflects_journal steps
  exact ⟨hanswers, rfl, rfl, hheld ⟨0, 0, "k"⟩, hheld ⟨0, 0, "l"⟩,
    hrefused "b" ⟨0, 0⟩ (.get "b" "k") rfl rfl rfl⟩

end StoreSoak
