import StoreSoak.Pool
import StoreSoak.Pressure
import StoreSoak.Report
import StoreSoak.Run.Error
import StoreSoak.Text.Utf8

/-!
The course of a run.

A run asks an open connection for its database, starts the pressure chains and the pool, raises the
start signal, and waits for all workers. Then it raises the shutdown signal and waits for all
chains, looks for the sentinel key, reports, waits for the operator where that is asked for and
nothing failed, and closes the connection. Its result is the first applicable of the errors met on
the way. A run with more chains or workers than there is room for breaks down when it is to start
them.

* `Setting` is what a run is given: its configuration, the connection and its surroundings.
* `Run.control` is the next move of the run itself; where it has to wait it changes nothing.
* `Run.step` goes on by one event: a move of the run, a worker's or a link's turn, the deadline, a
  cancellation from outside, or time going by.
* `trail` is what the run has done besides the workers' calls, the last deed first.
-/

namespace StoreSoak

/-- Puts a report out: what it prints, or the fault it meets. -/
abbrev Reporter := Report → Except IoFault String

/-- What a run is given. -/
structure Setting (σ : Type) where
  config : Config
  /-- The number of processors of the machine. -/
  processors : Nat
  /-- The generators of the workers where the configuration has no seed. -/
  entropy : Nat → Generator
  connection : Connection σ
  reporter : Reporter
  /-- What the operator writes. -/
  input : List UInt8

/-- How a run ends. -/
inductive Outcome where
  | finished (r : Report)
  | failed (e : RunError)
  | broken (b : Breakdown)
  deriving DecidableEq

/-- Something that a run does besides the calls of its workers. Times are in nanoseconds. -/
inductive Deed where
  | opened (address : String) (options : ConnectOptions)
  | selected (database : Int)
  | lookedUp (key : String) (now : Nat)
  | printed (s : String)
  | reported (r : Report)
  | awaited
  | closed (now : Nat)
  deriving DecidableEq

/-- Where a run stands. From the look at the sentinel key on, its answer and the report are kept. -/
inductive Phase where
  | selecting
  | launched
  | gathering
  | retiring
  | checking
  | reporting (sentinel : Except StoreError Bool) (r : Report)
  | acknowledging (sentinel : Except StoreError Bool) (r : Report)
  | closing (sentinel : Except StoreError Bool) (r : Report)
  | ended (o : Outcome)

/-- A run under way. -/
structure Run (σ : Type) where
  phase : Phase
  /-- The database that the workers share, once it has been asked for. -/
  database : Option (Database σ)
  pool : Pool σ
  pressure : Pressure
  /-- The time at which the deadline is over, while there is one. -/
  alarm : Option Nat
  /-- What the run has done, the last deed first. -/
  trail : List Deed

namespace Run

variable {σ : Type}

/-- The line that asks the operator to go on. -/
def prompt : String := "Soak run finished. Press Enter to exit...\n"

/-- The line that tells whether the sentinel key exists. -/
def sentinelLine (key : String) (present : Bool) : String :=
  "Sentinel key '" ++ key ++ "' exists: " ++ (if present then "true" else "false") ++ "\n"

/-- The bytes up to the end of the first line, the byte that ends it included. -/
def firstLine (input : List UInt8) : List UInt8 :=
  input.takeWhile (· ≠ 10) ++ (input.dropWhile (· ≠ 10)).take 1

/-- Waits for the operator: the first line of the input has to be text. -/
def acknowledge (input : List UInt8) : Except IoFault Unit :=
  match Text.ofUtf8 (firstLine input) with
  | .ok _ => .ok ()
  | .error f => .error ⟨.invalidData, some f.message⟩

/-- The run at an open connection, before its first move. -/
def begin (s : Setting σ) (store : σ) : Run σ :=
  { phase := .selecting
    database := none
    pool :=
      { plan := s.config.plan, policy := s.config.failurePolicy, workers := #[]
        signals := Signals.fresh, store, now := 0, notices := [] }
    pressure := Pressure.start 0
    alarm := none
    trail := [] }

/-- The run after one more deed. -/
def did (r : Run σ) (d : Deed) : Run σ :=
  { r with trail := d :: r.trail }

/-- The run with one more notice. -/
def note (r : Run σ) (n : Notice) : Run σ :=
  { r with pool := r.pool.note n }

/-- The run in another phase. -/
def goTo (r : Run σ) (p : Phase) : Run σ :=
  { r with phase := p }

/-- The run at its end. -/
def finish (r : Run σ) (o : Outcome) : Run σ :=
  r.goTo (.ended o)

/-- The number of chains of a run. -/
def chainCount (s : Setting σ) : Nat :=
  s.config.chains.resolve s.processors

/-- The reason why a run cannot start its chains and its workers, if there is one. -/
def crowding? (s : Setting σ) : Option Breakdown :=
  Breakdown.ofChains? (chainCount s) <|> Breakdown.ofWorkers? s.config.workers

/-- Starts the chains, the deadline and the pool at a database. -/
def launch (s : Setting σ) (r : Run σ) (db : Database σ) : Run σ :=
  let launched := Pool.launch s.config.plan s.config.failurePolicy s.config.workers s.entropy
    r.pool.store
  { r with
    phase := .launched
    database := some db
    pool :=
      { launched with
        signals := r.pool.signals
        now := r.pool.now
        notices := launched.notices ++ .chainsStarting (chainCount s) :: r.pool.notices }
    pressure := Pressure.start (chainCount s)
    alarm := s.config.deadline.map fun d => r.pool.now + d.waited }

/-- Asks for the database, and starts what works at it. -/
def select (s : Setting σ) (r : Run σ) : Run σ :=
  let r := r.did (.selected s.config.database)
  match s.connection.database s.config.database r.pool.store with
  | .error e => r.finish (.failed (.store e))
  | .ok db =>
    match crowding? s with
    | some b => r.finish (.broken b)
    | none => r.launch s db

/-- Raises the start signal and begins to wait for the workers. -/
def release (s : Setting σ) (r : Run σ) : Run σ :=
  let r := r.note (.running s.config.workers (s.config.maxIterations - 1))
  let r := { r with pool := { r.pool with signals := r.pool.signals.start } }
  (r.note (.joining r.pool.workers.size)).goTo .gathering

/-- All workers are gone: the deadline is off, and the chains are asked to stop. -/
def gathered (r : Run σ) : Run σ :=
  let r := { r with alarm := none }.note .allJoined
  { r with pool := r.pool.requestShutdown, phase := .retiring }

/-- The accounts of a run whose workers are gone. -/
def accounts (s : Setting σ) (r : Run σ) (sentinel : Except StoreError Bool) : Accounts :=
  { workers := r.pool.reports?.getD []
    elapsed := Duration.clamped r.pool.now
    chains := r.pressure.chains
    links := r.pressure.total
    sentinelKey := s.config.sentinelKey
    sentinelExists := sentinel.toOption }

/-- Looks for the sentinel key and makes the report. -/
def lookUp (s : Setting σ) (r : Run σ) (db : Database σ) : Run σ :=
  let key := s.config.sentinelKey
  let a := db.keyExists key r.pool.store
  let r := { r with pool := { r.pool with store := a.2 } }.did (.lookedUp key r.pool.now)
  let r := match a.1 with
    | .ok present => r.did (.printed (sentinelLine key present))
    | .error e => r.note (.sentinelFailed key e)
  match Report.ofAccounts (r.accounts s a.1) with
  | .error o => r.finish (.broken (.overflow o))
  | .ok report => r.goTo (.reporting a.1 report)

/-- Puts the report out. -/
def putOut (s : Setting σ) (r : Run σ) (sentinel : Except StoreError Bool) (report : Report) :
    Run σ :=
  let r := r.did (.reported report)
  match s.reporter report with
  | .error f => r.finish (.failed (.io f))
  | .ok text =>
    let r := if text.isEmpty then r else r.did (.printed text)
    if s.config.waitForAck && report.failures.isEmpty then r.goTo (.acknowledging sentinel report)
    else r.goTo (.closing sentinel report)

/-- Waits for the operator. -/
def await (s : Setting σ) (r : Run σ) (sentinel : Except StoreError Bool) (report : Report) :
    Run σ :=
  let r := (r.did (.printed prompt)).did .awaited
  match acknowledge s.input with
  | .error f => r.finish (.failed (.io f))
  | .ok () => r.goTo (.closing sentinel report)

/-- The result of a run that got as far as closing its connection. -/
def verdict (failures : List WorkerError) (sentinel : Except StoreError Bool) (report : Report) :
    Outcome :=
  match failures with
  | first :: _ => .failed (.workersFailed failures.length first)
  | [] =>
    match sentinel with
    | .error e => .failed (.store e)
    | .ok _ => .finished report

/-- Closes the connection. -/
def close (s : Setting σ) (r : Run σ) (sentinel : Except StoreError Bool) (report : Report) :
    Run σ :=
  let c := s.connection.close r.pool.store
  let r := { r with pool := { r.pool with store := c.2 } }.did (.closed r.pool.now)
  match c.1 with
  | .error e => r.finish (.failed (.store e))
  | .ok () =>
    (r.note .released).finish
      (verdict (Report.failuresOf (r.pool.reports?.getD [])) sentinel report)

/-- The next move of the run itself, if it has nothing to wait for. -/
def control (s : Setting σ) (r : Run σ) : Run σ :=
  match r.phase with
  | .selecting => r.select s
  | .launched => r.release s
  | .gathering => if r.pool.isOver then r.gathered else r
  | .retiring =>
    if r.pressure.isOver then (r.note (.chainsRetired r.pressure.total)).goTo .checking else r
  | .checking =>
    match r.database with
    | some db => r.lookUp s db
    | none => r
  | .reporting sentinel report => r.putOut s sentinel report
  | .acknowledging sentinel report => r.await s sentinel report
  | .closing sentinel report => r.close s sentinel report
  | .ended _ => r

/-- What can happen to a run. -/
inductive Event where
  /-- The run makes its next move. -/
  | control
  /-- A worker goes on. -/
  | turn (worker : Nat)
  /-- A pausing worker notices the shutdown signal. -/
  | interrupt (worker : Nat)
  /-- The link at a place goes on. -/
  | link (place : Nat)
  /-- The deadline is noticed. -/
  | alarm
  /-- The shutdown signal is raised from outside. -/
  | cancel
  /-- Time goes by. -/
  | tick (nanoseconds : Nat)
  deriving DecidableEq, Repr

/-- The pool of the run after an event of the pool. Without a database there is no worker to go
on. -/
def movePool (r : Run σ) (e : Pool.Event) : Run σ :=
  match r.database with
  | some db => { r with pool := r.pool.step db e }
  | none => r

/-- The deadline is noticed, if there is one and its time has come. -/
def ring (s : Setting σ) (r : Run σ) : Run σ :=
  match r.alarm, s.config.deadline with
  | some due, some limit =>
    if due ≤ r.pool.now then
      let r := { r with alarm := none }.note (.deadlineReached limit)
      { r with pool := r.pool.requestShutdown }
    else r
  | _, _ => r

/-- The run after an event. -/
def step (s : Setting σ) (r : Run σ) : Event → Run σ
  | .control => r.control s
  | .turn i => r.movePool (.turn i)
  | .interrupt i => r.movePool (.interrupt i)
  | .link i =>
    let l := r.pressure.step r.pool.signals.shutdown i
    { r with pressure := l.1, pool := { r.pool with notices := l.2 ++ r.pool.notices } }
  | .alarm => r.ring s
  | .cancel => { r with pool := r.pool.requestShutdown }
  | .tick d => { r with pool := { r.pool with now := r.pool.now + d } }

/-- The run after events in order. -/
def run (s : Setting σ) (r : Run σ) (events : List Event) : Run σ :=
  events.foldl (step s) r

/-- How the run ended, if it has. -/
def outcome? (r : Run σ) : Option Outcome :=
  match r.phase with
  | .ended o => some o
  | _ => none

end Run

end StoreSoak
