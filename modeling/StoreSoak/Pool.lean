import StoreSoak.Signals
import StoreSoak.Worker

/-!
The pool of workers.

A pool is a population of workers at one database, with the signals that they watch, a clock, and
the notices made so far, the last one first. It goes on by events: the clock ticks, a signal is
raised, or one worker takes a turn; any order of events is an interleaving of the workers.

* `turn` is the move of a worker that its stage calls for. A worker whose wait is not over stays
  where it is.
* A worker that leaves with a failure raises the shutdown signal under the abort policy, before its
  report is handed in.
* `reports?` are the reports of all workers in their order, once all are gone.
-/

namespace StoreSoak

/-- A pool of workers. -/
structure Pool (σ : Type) where
  plan : Plan
  policy : FailurePolicy
  workers : Array Worker
  signals : Signals
  store : σ
  /-- The time, in nanoseconds since the beginning. -/
  now : Nat
  /-- The notices, the last one first. -/
  notices : List Notice

namespace Pool

variable {σ : Type}

/-- What can happen to a pool. -/
inductive Event where
  /-- Time goes by. -/
  | tick (nanoseconds : Nat)
  /-- The start signal is raised. -/
  | start
  /-- The shutdown signal is raised from outside. -/
  | cancel
  /-- The lifecycle is given up without a signal. -/
  | dropLifecycle
  /-- A worker goes on. -/
  | turn (worker : Nat)
  /-- A pausing worker notices the shutdown signal. -/
  | interrupt (worker : Nat)
  deriving DecidableEq, Repr

/-- So many workers that wait for their start. -/
def launch (plan : Plan) (policy : FailurePolicy) (count : Nat) (entropy : Nat → Generator)
    (store : σ) : Pool σ :=
  { plan, policy, store
    workers := (Array.range count).map (Worker.launch plan entropy)
    signals := Signals.fresh
    now := 0
    notices := [.spawning count] }

/-- The pool with one more notice. -/
def note (p : Pool σ) (n : Notice) : Pool σ :=
  { p with notices := n :: p.notices }

/-- Raises the shutdown signal; only the first time is noted. -/
def requestShutdown (p : Pool σ) : Pool σ :=
  if p.signals.shutdown then p
  else { p with signals := p.signals.cancel }.note .shutdownRequested

/-- The pool after a worker's move. -/
def put (p : Pool σ) (i : Nat) (r : Worker × List Notice) : Pool σ :=
  { p with workers := p.workers.setIfInBounds i r.1, notices := r.2.reverse ++ p.notices }

/-- A worker whose loop is over hands in its report; with a failure under the abort policy it asks
the others to stop first. -/
def retire (p : Pool σ) (i : Nat) (w : Worker) (e : Exit) : Pool σ :=
  let p :=
    if (e.failure? w.index).isSome && p.policy = .abort then
      (p.note (.aborting w.index)).requestShutdown
    else p
  p.put i w.finish

/-- A worker's turn. -/
def turn (db : Database σ) (p : Pool σ) (i : Nat) (w : Worker) : Pool σ :=
  match w.stage with
  | .parked =>
    match p.signals.started with
    | none => p
    | some go => p.put i (w.release go)
  | .looping _ => p.put i (w.check p.plan p.signals.shutdown)
  | .cleared _ => p.put i (w.issue p.plan p.now)
  | .calling k f _ =>
    let r := (p.plan.request k f).perform db ⟨w.index, k⟩ p.store
    { p with store := r.2 }.put i (w.receive p.plan p.now r.1)
  | .pausing _ wake => if wake ≤ p.now then p.put i w.resume else p
  | .leaving e => p.retire i w e
  | .gone _ => p

/-- A pausing worker notices the shutdown signal, if it is raised. -/
def interrupt (p : Pool σ) (i : Nat) (w : Worker) : Pool σ :=
  if p.signals.shutdown then p.put i w.interrupt else p

/-- The pool after an event. -/
def step (db : Database σ) (p : Pool σ) : Event → Pool σ
  | .tick d => { p with now := p.now + d }
  | .start => { p with signals := p.signals.start }
  | .cancel => p.requestShutdown
  | .dropLifecycle => { p with signals := p.signals.dropLifecycle }
  | .turn i =>
    match p.workers[i]? with
    | none => p
    | some w => p.turn db i w
  | .interrupt i =>
    match p.workers[i]? with
    | none => p
    | some w => p.interrupt i w

/-- The pool after events in order. -/
def run (db : Database σ) (p : Pool σ) (events : List Event) : Pool σ :=
  events.foldl (step db) p

/-- Whether all workers are gone. -/
def isOver (p : Pool σ) : Bool :=
  p.workers.all Worker.isGone

/-- The reports of all workers in their order, once all are gone. -/
def reports? (p : Pool σ) : Option (List WorkerReport) :=
  p.workers.toList.mapM Worker.report?

end Pool

end StoreSoak
