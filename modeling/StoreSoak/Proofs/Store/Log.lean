import StoreSoak.Proofs.Pool.Steps

/-!
Stores that write down how they are used.

Any database and any connection can be made to note every use in a log next to its state: the calls
of the workers with their callers and replies, the looks for a key, and the end of the connection.
The log changes nothing else.

* `Database.logged` and `Connection.logged` are the same store with a log.
* `Request.perform_logged` says what a worker's call adds to the log.
* `Pool.run_plain`: a run at a store with a log is the run at the store without it.
-/

namespace StoreSoak

/-- A worker's call as the store sees it. -/
structure Served where
  caller : Caller
  request : Request
  reply : Reply (Option Bool)
  deriving DecidableEq

/-- A use of a connection. -/
inductive Access where
  | served (s : Served)
  | lookedUp (key : String)
  | closed
  deriving DecidableEq

/-- The state of a store, and how it was used so far, the last use first. -/
structure Logged (σ : Type) where
  store : σ
  log : List Access

variable {σ : Type}

/-- The database with a log. -/
def Database.logged (db : Database σ) : Database (Logged σ) where
  set c key value f s :=
    let a := db.set c key value f s.store
    (a.1, ⟨a.2, .served ⟨c, .set key value f, a.1.map fun _ => none⟩ :: s.log⟩)
  execute c t s :=
    let a := db.execute c t s.store
    (a.1, ⟨a.2, .served ⟨c, .execute t, a.1.map some⟩ :: s.log⟩)
  keyExists key s :=
    let a := db.keyExists key s.store
    (a.1, ⟨a.2, .lookedUp key :: s.log⟩)

/-- The connection with a log. -/
def Connection.logged (c : Connection σ) : Connection (Logged σ) where
  database index s := (c.database index s.store).map Database.logged
  close s :=
    let a := c.close s.store
    (a.1, ⟨a.2, .closed :: s.log⟩)

/-- A call is noted with its caller and its reply; reply and state are those without the log. -/
lemma Request.perform_logged (r : Request) (db : Database σ) (c : Caller) (s : Logged σ) :
    r.perform db.logged c s =
      ((r.perform db c s.store).1,
        ⟨(r.perform db c s.store).2, .served ⟨c, r, (r.perform db c s.store).1⟩ :: s.log⟩) := by
  cases r <;> rfl

namespace Pool

/-- The pool at a store with a log. -/
def logged (p : Pool σ) (log : List Access) : Pool (Logged σ) :=
  { p with store := ⟨p.store, log⟩ }

/-- The pool without its log. -/
def plain (p : Pool (Logged σ)) : Pool σ :=
  { p with store := p.store.store }

lemma plain_logged (p : Pool σ) (log : List Access) : (p.logged log).plain = p := rfl

lemma plain_requestShutdown (p : Pool (Logged σ)) :
    p.requestShutdown.plain = p.plain.requestShutdown := by
  rw [requestShutdown_eq, requestShutdown_eq]
  rfl

lemma plain_retire (p : Pool (Logged σ)) (i : ℕ) (w : Worker) (e : Exit) :
    (p.retire i w e).plain = p.plain.retire i w e := by
  have hput (q : Pool (Logged σ)) : (q.put i w.finish).plain = q.plain.put i w.finish := rfl
  rw [retire_eq, retire_eq, hput]
  congr 1
  split
  · rename_i h
    exact (plain_requestShutdown _).trans (if_pos h).symm
  · rename_i h
    exact (if_neg h).symm

/-- An event at a store with a log does what it does without the log. -/
lemma step_plain (db : Database σ) (p : Pool (Logged σ)) (e : Event) :
    (p.step db.logged e).plain = p.plain.step db e := by
  have hworkers (i : ℕ) : p.plain.workers[i]? = p.workers[i]? := rfl
  cases e with
  | tick d => rfl
  | start => rfl
  | cancel => exact plain_requestShutdown p
  | dropLifecycle => rfl
  | turn i =>
      rw [step, step, hworkers]
      cases hw : p.workers[i]? with
      | none => rfl
      | some w =>
          -- only the turn that awaits a reply asks the store, and there the log is put on top
          simp only [turn]
          cases hs : w.stage with
          | parked =>
              have hsignals : p.plain.signals = p.signals := rfl
              simp only [hsignals]
              cases p.signals.started <;> rfl
          | looping k => rfl
          | cleared k => rfl
          | calling k f since =>
              simp only [Request.perform_logged]
              rfl
          | pausing k wake =>
              simp only
              show _ = if wake ≤ p.now then p.plain.put i w.resume else p.plain
              split <;> rfl
          | leaving e => exact plain_retire p i w e
          | gone e => rfl
  | interrupt i =>
      rw [step, step, hworkers]
      cases hw : p.workers[i]? with
      | none => rfl
      | some w =>
          simp only [interrupt]
          show _ = if p.signals.shutdown = true then p.plain.put i w.interrupt else p.plain
          split <;> rfl

/-- An event leaves the log as it is, or adds a call that came back. -/
lemma Stepped.log {db : Database σ} {p p' : Pool (Logged σ)} {e : Event}
    (h : Stepped db.logged p e p') :
    p'.store.log = p.store.log ∨ ∃ s, p'.store.log = .served s :: p.store.log := by
  cases h with
  | receive hw hs hr =>
      rw [Request.perform_logged] at hr
      subst hr
      exact .inr ⟨_, rfl⟩
  | _ => exact .inl (by simp)

/-- An event at a store with a log is the event at the store without it. -/
lemma step_logged (db : Database σ) (p : Pool σ) (log : List Access) (e : Event) :
    ∃ log', (p.logged log).step db.logged e = (p.step db e).logged log' := by
  refine ⟨((p.logged log).step db.logged e).store.log, ?_⟩
  rw [← plain_logged p log, ← step_plain]
  rfl

/-- **A run at a store with a log is the run at the store without it.** -/
theorem run_plain (db : Database σ) (p : Pool (Logged σ)) (events : List Event) :
    (p.run db.logged events).plain = p.plain.run db events := by
  induction events generalizing p with
  | nil => rfl
  | cons e events ih => rw [run_cons, run_cons, ih, step_plain]

end Pool

end StoreSoak
