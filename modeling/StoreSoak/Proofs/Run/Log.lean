import StoreSoak.Proofs.Run.Steps
import StoreSoak.Proofs.Store.Log

/-!
How a run uses its connection.

* `uses` is how a run used its connection, in the order of time: the log of the same run at the
  connection that keeps a log.
* `run_logged`: the log makes no difference to the run.
-/

namespace StoreSoak

variable {σ : Type}

/-- The setting with a connection that keeps a log. -/
def Setting.logged (s : Setting σ) : Setting (Logged σ) :=
  { config := s.config
    processors := s.processors
    entropy := s.entropy
    connection := s.connection.logged
    reporter := s.reporter
    input := s.input }

namespace Run

/-- The run at a store with a log. -/
def logged (r : Run σ) (log : List Access) : Run (Logged σ) :=
  { phase := r.phase
    database := r.database.map Database.logged
    pool := r.pool.logged log
    pressure := r.pressure
    alarm := r.alarm
    trail := r.trail }

/-- How a run used its connection, in the order of time. -/
def uses (s : Setting σ) (store : σ) (events : List Event) : List Access :=
  ((begin s.logged ⟨store, []⟩).run s.logged events).pool.store.log.reverse

lemma requestShutdown_logged (p : Pool σ) (log : List Access) :
    (p.logged log).requestShutdown = p.requestShutdown.logged log := by
  rw [Pool.requestShutdown_eq, Pool.requestShutdown_eq]
  rfl

lemma ring_logged (s : Setting σ) (r : Run σ) (log : List Access) :
    (r.logged log).ring s.logged = (r.ring s).logged log := by
  have halarm : (r.logged log).alarm = r.alarm := rfl
  have hconfig : s.logged.config = s.config := rfl
  rw [ring, ring, halarm, hconfig]
  cases r.alarm with
  | none => rfl
  | some due =>
      cases s.config.deadline with
      | none => rfl
      | some limit =>
          simp only
          show (if due ≤ r.pool.now then _ else _) = _
          split
          · simp only [logged]
            rw [← requestShutdown_logged]
            rfl
          · rfl

lemma select_logged (s : Setting σ) (r : Run σ) (log : List Access) :
    (r.logged log).select s.logged = (r.select s).logged log := by
  rw [select, select]
  have hdb : s.logged.connection.database s.logged.config.database
      ((r.logged log).did (.selected s.logged.config.database)).pool.store =
        (s.connection.database s.config.database r.pool.store).map Database.logged := rfl
  have hdb' : (r.did (.selected s.config.database)).pool.store = r.pool.store := rfl
  have hb : crowding? s.logged = crowding? s := rfl
  simp only [hdb, hdb', hb]
  cases s.connection.database s.config.database r.pool.store with
  | error e => rfl
  | ok db =>
      simp only [Except.map]
      cases crowding? s <;> rfl

lemma lookUp_logged (s : Setting σ) (r : Run σ) (db : Database σ) (log : List Access) :
    (r.logged log).lookUp s.logged db.logged =
      (r.lookUp s db).logged (.lookedUp s.config.sentinelKey :: log) := by
  have ha : (db.logged.keyExists s.logged.config.sentinelKey (r.logged log).pool.store).1 =
      (db.keyExists s.config.sentinelKey r.pool.store).1 := rfl
  have haccounts (a : Except StoreError Bool) :
      (r.logged log).accounts s.logged a = r.accounts s a := rfl
  have hlooked : (r.logged log).looked s.logged db.logged =
      (r.looked s db).logged (.lookedUp s.config.sentinelKey :: log) := by
    simp only [looked]
    rw [ha]
    cases (db.keyExists s.config.sentinelKey r.pool.store).1 <;> rfl
  rw [lookUp_eq, lookUp_eq, ha, haccounts, hlooked]
  cases Report.ofAccounts
    (r.accounts s (db.keyExists s.config.sentinelKey r.pool.store).1) <;> rfl

lemma putOut_logged (s : Setting σ) (r : Run σ) (sentinel : Except StoreError Bool)
    (report : Report) (log : List Access) :
    (r.logged log).putOut s.logged sentinel report = (r.putOut s sentinel report).logged log := by
  have hreporter : s.logged.reporter report = s.reporter report := rfl
  have hwait : s.logged.config.waitForAck = s.config.waitForAck := rfl
  simp only [putOut, hreporter, hwait]
  cases s.reporter report with
  | error f => rfl
  | ok text =>
      simp only
      cases text.isEmpty <;> cases s.config.waitForAck && report.failures.isEmpty <;> rfl

lemma await_logged (s : Setting σ) (r : Run σ) (sentinel : Except StoreError Bool)
    (report : Report) (log : List Access) :
    (r.logged log).await s.logged sentinel report = (r.await s sentinel report).logged log := by
  have hinput : s.logged.input = s.input := rfl
  simp only [await, hinput]
  cases acknowledge s.input <;> rfl

lemma close_logged (s : Setting σ) (r : Run σ) (sentinel : Except StoreError Bool)
    (report : Report) (log : List Access) :
    (r.logged log).close s.logged sentinel report =
      (r.close s sentinel report).logged (.closed :: log) := by
  have hc : (s.logged.connection.close (r.logged log).pool.store).1 =
      (s.connection.close r.pool.store).1 := rfl
  simp only [close]
  rw [hc]
  cases (s.connection.close r.pool.store).1 <;> rfl

/-- A move of a run at a connection with a log is the move at the connection without it. -/
lemma control_logged (s : Setting σ) (r : Run σ) (log : List Access) :
    ∃ log', (r.logged log).control s.logged = (r.control s).logged log' := by
  have hp : (r.logged log).phase = r.phase := rfl
  rw [control, control, hp]
  -- logging adds to the store and decides nothing, so each phase goes the same way
  cases r.phase with
  | selecting => exact ⟨log, select_logged s r log⟩
  | launched => exact ⟨log, rfl⟩
  | gathering =>
      refine ⟨log, ?_⟩
      show (if r.pool.isOver = true then (r.logged log).gathered else r.logged log) = _
      cases r.pool.isOver with
      | false => rfl
      | true =>
          show { (r.logged log) with
            alarm := none
            pool := ((r.pool.note .allJoined).logged log).requestShutdown
            phase := .retiring } = _
          rw [requestShutdown_logged]
          rfl
  | retiring =>
      refine ⟨log, ?_⟩
      show (if r.pressure.isOver = true then _ else _) = _
      cases r.pressure.isOver <;> rfl
  | checking =>
      cases hdb : r.database with
      | none => exact ⟨log, by rw [logged, hdb]; rfl⟩
      | some db =>
          refine ⟨.lookedUp s.config.sentinelKey :: log, ?_⟩
          have hlogged : (r.logged log).database = some db.logged := by
            rw [logged, hdb, Option.map_some]
          simp only [hlogged]
          exact lookUp_logged s r db log
  | reporting sentinel report => exact ⟨log, putOut_logged s r sentinel report log⟩
  | acknowledging sentinel report => exact ⟨log, await_logged s r sentinel report log⟩
  | closing sentinel report => exact ⟨_, close_logged s r sentinel report log⟩
  | ended o => exact ⟨log, rfl⟩

lemma movePool_logged (r : Run σ) (e : Pool.Event) (log : List Access) :
    ∃ log', (r.logged log).movePool e = (r.movePool e).logged log' := by
  cases hdb : r.database with
  | none => exact ⟨log, by simp only [movePool, logged, hdb, Option.map_none]⟩
  | some db =>
      obtain ⟨log', hlog⟩ := Pool.step_logged db r.pool log e
      refine ⟨log', ?_⟩
      have hpool : (r.logged log).pool = r.pool.logged log := rfl
      have hlogged : (r.logged log).database = some db.logged := by
        rw [logged, hdb, Option.map_some]
      simp only [movePool, hlogged, hdb, hpool, hlog]
      simp only [logged, hdb, Option.map_some]

/-- **A run at a connection with a log is the run at the connection without it.** -/
theorem run_logged (s : Setting σ) (r : Run σ) (log : List Access) (events : List Event) :
    ∃ log', (r.logged log).run s.logged events = (r.run s events).logged log' := by
  induction events generalizing r log with
  | nil => exact ⟨log, rfl⟩
  | cons e events ih =>
      have hstep : ∃ log', (r.logged log).step s.logged e = (r.step s e).logged log' := by
        cases e with
        | control => exact control_logged s r log
        | turn i => exact movePool_logged r (.turn i) log
        | interrupt i => exact movePool_logged r (.interrupt i) log
        | link i => exact ⟨log, rfl⟩
        | alarm => exact ⟨log, ring_logged s r log⟩
        | cancel =>
            refine ⟨log, ?_⟩
            show { (r.logged log) with pool := (r.pool.logged log).requestShutdown } = _
            rw [requestShutdown_logged]
            rfl
        | tick d => exact ⟨log, rfl⟩
      obtain ⟨log', hlog⟩ := hstep
      rw [run_cons, run_cons, hlog]
      exact ih (r.step s e) log'

end Run

end StoreSoak
