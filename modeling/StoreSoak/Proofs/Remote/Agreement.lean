import StoreSoak.Proofs.Remote.Server
import StoreSoak.Proofs.Store.Shared
import StoreSoak.Store.Session

/-!
The store at the other end of a pipe and the store inside the process are one store.

* `Operation` is a call on a database, `answers` makes calls in a row at any store.
* `Alike`: a pipe and a store inside the process that hold the same; `Alike.call` says that every
  call keeps this, and that the answers are alike.
* `stores_agree`: from the same content on, and where the server can be relied on, both stores give
  the same answers call by call and end with the same content. Only a set that does not wait has no
  answer from the pipe.
-/

namespace StoreSoak.Remote

open Session

/-- A call on a database. -/
inductive Operation where
  | set (key value : String) (f : Flags)
  | get (key : String)
  | keyExists (key : String)
  | execute (t : Transaction)

namespace Operation

/-- The call at the store inside the process. -/
def onMemory (index : ℤ) (m : Memory) : Operation → Answer × Memory
  | .set key value f => (.ofCall .value (m.set index key value f).1, (m.set index key value f).2)
  | .get key => (.ofCall .value (m.get index key), m)
  | .keyExists key => (.ofCall .truth (m.keyExists index key), m)
  | .execute t => (.ofCall .truth (m.execute index t).1, (m.execute index t).2)

/-- The call down a pipe. -/
def onPipe {σ : Type} (net : Network σ) (limit : Duration) (p : Pipe σ) :
    Operation → Answer × Pipe σ
  | .set key value f =>
    (.ofCall .value (p.set net limit key value f).1, (p.set net limit key value f).2)
  | .get key => (.ofCall .value (p.get net limit key).1, (p.get net limit key).2)
  | .keyExists key =>
    (.ofCall .truth (p.keyExists net limit key).1, (p.keyExists net limit key).2)
  | .execute t => (.ofCall .truth (p.execute net limit t).1, (p.execute net limit t).2)

/-- What a call is answered down a pipe that is answered in a given way inside the process: a set
that does not wait is answered with nothing. -/
def downPipe (a : Answer) : Operation → Answer
  | .set _ _ f => if f.fireAndForget then .value none else a
  | _ => a

/-- The answers to calls in a row, and the store after them. -/
def answers {σ : Type} (call : σ → Operation → Answer × σ) (s : σ) :
    List Operation → List Answer × σ
  | [] => ([], s)
  | o :: rest =>
    ((call s o).1 :: (answers call (call s o).2 rest).1, (answers call (call s o).2 rest).2)

end Operation

/-! ### Calls -/

section Calls

variable {σ : Type} {net : Network σ} {contents : σ → Keyspace}
  {script? : σ → String → Option String} (hnet : net.Lawful contents script?) (limit : Duration)
  {p : Pipe σ} {k : Keyspace}

/-- A command whose reply is no error. -/
lemma send_of_answer {c : Command} {v : Value} {s : σ} (hp : p.broken = false)
    (hc : net.answer c p.server = (.reply v, s)) (hv : v.error? = none) :
    ∃ q, p.send net c = (.ok v, q) ∧ q.broken = false ∧ q.server = s := by
  refine ⟨{ p with server := s, sent := c :: p.sent }, ?_, hp, rfl⟩
  rw [Pipe.send, Pipe.exchange, hp, hc]
  simp only [Bool.false_eq_true, if_false, hv]

/-- A command that the server refuses. -/
lemma send_of_refusal {c : Command} {e : String} {s : σ} (hp : p.broken = false)
    (hc : net.answer c p.server = (.reply (.error e), s)) :
    ∃ q, p.send net c = (.error (.failure (Failure.ofServer e)), q) ∧ q.broken = false ∧
      q.server = s := by
  refine ⟨{ p with server := s, sent := c :: p.sent }, ?_, hp, rfl⟩
  rw [Pipe.send, Pipe.exchange, hp, hc]
  rfl

/-- A pipe to a server that holds a keyspace and keeps no other script under the digest of the one
for transactions. -/
structure Serving (contents : σ → Keyspace) (script? : σ → String → Option String) (p : Pipe σ)
    (k : Keyspace) : Prop where
  unbroken : p.broken = false
  keyspace : contents p.server = k
  scripts : ∀ script, script? p.server Script.digest = some script → script = Script.text

/-- A notice changes nothing for the server. -/
lemma Serving.note (h : Serving contents script? p k) (n : Notice) :
    Serving contents script? (p.note n) k :=
  ⟨h.unbroken, h.keyspace, h.scripts⟩

include hnet

/-- A command on keys. -/
lemma Serving.send (h : Serving contents script? p k) {c : Command} {v : Value} {k' : Keyspace}
    (hc : Server.perform? k c = some (v, k')) (hv : v.error? = none) :
    ∃ q, p.send net c = (.ok v, q) ∧ Serving contents script? q k' := by
  rw [← h.keyspace] at hc
  obtain ⟨s, hanswer, hcontents, hscripts⟩ := hnet.perform hc
  obtain ⟨q, hsend, hbroken, hserver⟩ := send_of_answer h.unbroken hanswer hv
  refine ⟨q, hsend, hbroken, by rw [hserver, hcontents], ?_⟩
  rw [hserver, hscripts]
  exact h.scripts

/-- The script is called at a server that knows it. -/
lemma Serving.send_call (h : Serving contents script? p k) (t : Transaction)
    (hknown : script? p.server Script.digest = some Script.text) :
    ∃ q, p.send net (Script.call t) = (.ok (.int (if (t.commit k).1 then 1 else 0)), q) ∧
      Serving contents script? q (t.commit k).2 := by
  have hrun := Script.evaluate_text t k
  rw [← h.keyspace] at hrun
  obtain ⟨s, hanswer, hcontents, hscripts⟩ := hnet.call hknown hrun
  obtain ⟨q, hsend, hbroken, hserver⟩ := send_of_answer h.unbroken hanswer rfl
  rw [h.keyspace] at hsend hcontents
  refine ⟨q, hsend, hbroken, by rw [hserver, hcontents], ?_⟩
  rw [hserver, hscripts]
  exact h.scripts

/-- The script for a transaction is run, whether the server knew it before or not. -/
lemma Serving.invoke (h : Serving contents script? p k) (t : Transaction) :
    ∃ q, p.invoke net t = (.ok (.int (if (t.commit k).1 then 1 else 0)), q) ∧
      Serving contents script? q (t.commit k).2 := by
  cases hknown : script? p.server Script.digest with
  | some script =>
      obtain rfl := h.scripts script hknown
      obtain ⟨q, hsend, hserving⟩ := h.send_call hnet t hknown
      refine ⟨q, ?_, hserving⟩
      rw [Pipe.invoke, hsend]
  | none =>
      -- the server is given the script, and the call is made once more
      obtain ⟨e, s, hanswer, he, hcontents, -⟩ :=
        hnet.unknown (Script.keys t) (Script.arguments t) hknown
      obtain ⟨q, hrefusal, hbroken, hserver⟩ := send_of_refusal h.unbroken hanswer
      obtain ⟨v, s', hanswer', hv, hcontents', hknown'⟩ := hnet.load q.server
      obtain ⟨q', hload, hbroken', hserver'⟩ := send_of_answer hbroken hanswer' hv
      have hloaded : script? q'.server Script.digest = some Script.text := by
        rw [hserver', hknown']
      have hserving : Serving contents script? q' k := by
        refine ⟨hbroken', ?_, ?_⟩
        · rw [hserver', hcontents', hserver, hcontents, h.keyspace]
        · intro script hscript
          rw [hloaded] at hscript
          exact (Option.some.inj hscript).symm
      obtain ⟨r, hsend, hserving'⟩ := hserving.send_call hnet t hloaded
      refine ⟨r, ?_, hserving'⟩
      have hrefusal' : p.send net (Script.call t) = (.error (.failure (Failure.ofServer e)), q) :=
        hrefusal
      rw [Pipe.invoke, hrefusal']
      dsimp only
      rw [if_pos he, hload]
      dsimp only
      rw [hsend]

lemma Serving.set (h : Serving contents script? p k) (key value : String) (f : Flags) :
    ∃ q, p.set net limit key value f = (.ok (if f.fireAndForget then none else k.get? key), q) ∧
      Serving contents script? q (k.insert key value) := by
  have hnoted : Serving contents script?
      (if f.highPriority then p.note (.urgentSet key) else p) k := by
    split
    · exact h.note _
    · exact h
  rw [Pipe.set]
  -- the priority is only noted in the trail, so both branches go on alike
  generalize (if f.highPriority then p.note (.urgentSet key) else p) = r at hnoted
  cases hf : f.fireAndForget with
  | true =>
      have hc : Server.perform? k ["SET", key, value] =
        some (.status "OK", k.insert key value) := rfl
      obtain ⟨q, hsend, hserving⟩ := hnoted.send hnet hc rfl
      refine ⟨q, ?_, hserving⟩
      rw [if_pos rfl, hsend]
      rfl
  | false =>
      have hc : Server.perform? k ["SET", key, value, "GET"] =
          some (Server.bulk (k.get? key), k.insert key value) := rfl
      obtain ⟨q, hsend, hserving⟩ := hnoted.send hnet hc (Server.error?_bulk _)
      refine ⟨q, ?_, hserving⟩
      rw [if_neg Bool.false_ne_true, hsend, Pipe.call]
      dsimp only
      rw [Server.text?_bulk]
      rfl

lemma Serving.get (h : Serving contents script? p k) (key : String) :
    ∃ q, p.get net limit key = (.ok (k.get? key), q) ∧ Serving contents script? q k := by
  have hc : Server.perform? k ["GET", key] = some (Server.bulk (k.get? key), k) := rfl
  obtain ⟨q, hsend, hserving⟩ := h.send hnet hc (Server.error?_bulk _)
  refine ⟨q, ?_, hserving⟩
  rw [Pipe.get, hsend, Pipe.call]
  dsimp only
  rw [Server.text?_bulk]

lemma Serving.keyExists (h : Serving contents script? p k) (key : String) :
    ∃ q, p.keyExists net limit key = (.ok (k.contains key), q) ∧
      Serving contents script? q k := by
  have hc : Server.perform? k ["EXISTS", key] =
      some (.int (if k.contains key then 1 else 0), k) := rfl
  obtain ⟨q, hsend, hserving⟩ := h.send hnet hc rfl
  refine ⟨q, ?_, hserving⟩
  rw [Pipe.keyExists, hsend, Pipe.call]
  cases k.contains key <;> rfl

lemma Serving.execute (h : Serving contents script? p k) (t : Transaction) :
    ∃ q, p.execute net limit t = (.ok (t.commit k).1, q) ∧
      Serving contents script? q (t.commit k).2 := by
  have hnoted : Serving contents script?
      (if t.writes.any fun w => w.flags.highPriority then p.note .urgentTransaction else p) k := by
    split
    · exact h.note _
    · exact h
  rw [Pipe.execute]
  obtain ⟨q, hinvoke, hserving⟩ := hnoted.invoke hnet t
  refine ⟨q, ?_, hserving⟩
  rw [hinvoke]
  cases (t.commit k).1 <;> rfl

end Calls

/-! ### The two stores -/

section Stores

variable {σ : Type} {net : Network σ} {contents : σ → Keyspace}
  {script? : σ → String → Option String} (hnet : net.Lawful contents script?) (limit : Duration)
  {index : ℤ} {p : Pipe σ} {m : Memory}

/-- A pipe and an open store inside the process that hold the same. -/
structure Alike (contents : σ → Keyspace) (script? : σ → String → Option String) (index : ℤ)
    (p : Pipe σ) (m : Memory) : Prop where
  serving : Serving contents script? p (m.keyspace index)
  unclosed : m.closed = false

include hnet

/-- **Every call keeps two stores alike** and is answered by both alike, and by neither with a
failure. -/
theorem Alike.call (h : Alike contents script? index p m) (o : Operation) :
    Alike contents script? index (o.onPipe net limit p).2 (o.onMemory index m).2 ∧
      (o.onPipe net limit p).1 = o.downPipe (o.onMemory index m).1 ∧
      ∀ e, (o.onPipe net limit p).1 ≠ .failed e := by
  -- the pipe answers by its own lemma for each operation, the open memory by evaluation
  cases o with
  | set key value f =>
      obtain ⟨q, hset, hserving⟩ := h.serving.set hnet limit key value f
      have hmemory : m.set index key value f = (.ok ((m.keyspace index).get? key),
          m.withKeyspace index ((m.keyspace index).insert key value)) := by
        rw [Memory.set, h.unclosed]
        rfl
      rw [Operation.onPipe, Operation.onMemory, hset, hmemory, Operation.downPipe]
      refine ⟨⟨?_, h.unclosed⟩, ?_, fun e he => by cases he⟩
      · rw [Memory.keyspace_withKeyspace, if_pos rfl]
        exact hserving
      · cases f.fireAndForget <;> rfl
  | get key =>
      obtain ⟨q, hget, hserving⟩ := h.serving.get hnet limit key
      have hmemory : m.get index key = .ok ((m.keyspace index).get? key) := by
        rw [Memory.get, h.unclosed]
        rfl
      rw [Operation.onPipe, Operation.onMemory, hget, hmemory]
      exact ⟨⟨hserving, h.unclosed⟩, rfl, fun e he => by cases he⟩
  | keyExists key =>
      obtain ⟨q, hexists, hserving⟩ := h.serving.keyExists hnet limit key
      have hmemory : m.keyExists index key = .ok ((m.keyspace index).contains key) := by
        rw [Memory.keyExists, h.unclosed]
        rfl
      rw [Operation.onPipe, Operation.onMemory, hexists, hmemory]
      exact ⟨⟨hserving, h.unclosed⟩, rfl, fun e he => by cases he⟩
  | execute t =>
      obtain ⟨q, hexecute, hserving⟩ := h.serving.execute hnet limit t
      have hmemory : m.execute index t = (.ok (t.commit (m.keyspace index)).1,
          m.withKeyspace index (t.commit (m.keyspace index)).2) := by
        rw [Memory.execute, h.unclosed]
        rfl
      rw [Operation.onPipe, Operation.onMemory, hexecute, hmemory]
      refine ⟨⟨?_, h.unclosed⟩, rfl, fun e he => by cases he⟩
      rw [Memory.keyspace_withKeyspace, if_pos rfl]
      exact hserving

/-- Calls in a row keep two stores alike, and are answered alike. -/
lemma Alike.answers (h : Alike contents script? index p m) (operations : List Operation) :
    Alike contents script? index (Operation.answers (Operation.onPipe net limit) p operations).2
        (Operation.answers (Operation.onMemory index) m operations).2 ∧
      (Operation.answers (Operation.onPipe net limit) p operations).1 =
        List.zipWith (fun o a => o.downPipe a) operations
          (Operation.answers (Operation.onMemory index) m operations).1 ∧
      ∀ e, .failed e ∉ (Operation.answers (Operation.onPipe net limit) p operations).1 := by
  induction operations generalizing p m with
  | nil => exact ⟨h, rfl, fun e => List.not_mem_nil⟩
  | cons o rest ih =>
      obtain ⟨hafter, hanswer, hfine⟩ := h.call hnet limit o
      obtain ⟨hend, hanswers, hfines⟩ := ih hafter
      refine ⟨hend, ?_, ?_⟩
      · rw [Operation.answers, Operation.answers, List.zipWith_cons_cons, hanswer, hanswers]
      · intro e he
        rcases List.mem_cons.mp he with he | he
        · exact hfine e he.symm
        · exact hfines e he

/-- **The two stores are one store.** A pipe to a server and an open store inside the process that
hold the same answer every row of calls alike, call by call, and hold the same in the end. There is
no failure among the answers: the script finds every condition and every write of a transaction,
commits when the store inside the process does, and writes nothing otherwise. No other script may be
kept under the digest of the one for transactions. -/
theorem stores_agree (index : ℤ) (p : Pipe σ) (m : Memory) (operations : List Operation)
    (hpipe : p.broken = false) (hopen : m.closed = false)
    (hsame : contents p.server = m.keyspace index)
    (hscripts : ∀ script, script? p.server Script.digest = some script → script = Script.text) :
    let remote := Operation.answers (Operation.onPipe net limit) p operations
    let inside := Operation.answers (Operation.onMemory index) m operations
    remote.1 = List.zipWith (fun o a => o.downPipe a) operations inside.1 ∧
      (∀ e, .failed e ∉ remote.1) ∧ contents remote.2.server = inside.2.keyspace index ∧
      ∀ (t : Transaction) (k : Keyspace),
        Script.Packed t (Script.keys t) (Script.arguments t) ∧
          Server.evaluate? Script.text (Script.keys t) (Script.arguments t) k =
            some (.int (if (t.commit k).1 then 1 else 0), (t.commit k).2) ∧
          ((t.commit k).1 = false → (t.commit k).2 = k) := by
  intro remote inside
  have halike : Alike contents script? index p m := ⟨⟨hpipe, hsame, hscripts⟩, hopen⟩
  obtain ⟨hend, hanswers, hfine⟩ := halike.answers hnet limit operations
  refine ⟨hanswers, hfine, hend.serving.keyspace, fun t k =>
    ⟨Script.packed t, Script.evaluate_text t k, ?_⟩⟩
  rw [Transaction.commit]
  cases t.holds k with
  | true =>
      intro hfalse
      cases hfalse
  | false => exact fun _ => rfl

end Stores

/-- A transaction that is committed once, at a server that is given its script. -/
theorem stores_agree_on_guarded_write :
    let net := Server.network fun _ => .error ⟨.other, none⟩
    let p : Pipe Server := ⟨⟨Table.empty, Table.empty⟩, false, [], []⟩
    let t : Transaction :=
      ⟨[.exists "a", .absent "b"], [⟨"a", "2", Flags.urgent⟩, ⟨"b", "3", Flags.none⟩]⟩
    let operations := [.set "a" "1" Flags.forgetful, .execute t, .execute t, .get "b"]
    (Operation.answers (Operation.onPipe net Duration.zero) p operations).1 =
      [.value none, .truth true, .truth false, .value (some "3")] := by
  intro net p t operations
  have hnet : net.Lawful Server.keyspace fun s => s.scripts.get? := Server.lawful _
  have hagree := stores_agree hnet Duration.zero 0 p Memory.fresh operations rfl rfl rfl
    fun script hscript => by cases hscript
  exact hagree.1.trans rfl

end StoreSoak.Remote
