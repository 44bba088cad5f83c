import StoreSoak.Config
import StoreSoak.Measure.Tally
import StoreSoak.Notice
import StoreSoak.Store.Connection

/-!
One worker.

A worker waits for its start and then runs its iterations in order. Each goes through the same
stages: at the head of the loop the bound is looked at and then the shutdown signal; a cleared
iteration draws its flags and issues its one call; the answer is tallied; after some iterations the
worker pauses. A worker leaves with an `Exit`, and is gone once it has handed it in.

* `Plan.request` is the call of an iteration.
* `release`, `check`, `issue`, `receive`, `resume`, `interrupt` and `finish` are the moves of a
  worker, each from one stage; in any other stage a move changes nothing.
* `report?` is what a worker that is gone leaves behind.

A worker keeps its calls, the last one first, each with the answer it got.
-/

namespace StoreSoak

/-- What a worker asks the store for. -/
inductive Request where
  | set (key value : String) (flags : Flags)
  | execute (t : Transaction)
  deriving DecidableEq, Repr

namespace Request

/-- The dispatch flags of a request, those of all its writes together. -/
def flags : Request → Flags
  | .set _ _ f => f
  | .execute t => t.flags

/-- Makes the call. A set is answered without saying whether it committed. -/
def perform {σ : Type} (r : Request) (db : Database σ) (caller : Caller) (s : σ) :
    Reply (Option Bool) × σ :=
  match r with
  | .set key value f =>
    let a := db.set caller key value f s
    (a.1.map fun _ => none, a.2)
  | .execute t =>
    let a := db.execute caller t s
    (a.1.map some, a.2)

end Request

/-- The call of an iteration with the flags drawn for it: a set of the shared key, or a transaction
that sets it unless the guard exists. -/
def Plan.request (p : Plan) (iteration : Nat) (f : Flags) : Request :=
  match Plan.kindOf iteration with
  | .direct => .set p.sharedKey p.payload f
  | .transactional =>
    .execute <| (Transaction.empty.require (.absent p.guardKey)).stage p.sharedKey p.payload
      (f.union Flags.forgetful)

/-- A call of a worker. -/
structure Call where
  iteration : Nat
  /-- The time at which it was issued. -/
  issuedAt : Nat
  /-- The flags drawn for the iteration. -/
  drawn : Flags
  request : Request
  /-- What it came back with, once it has. -/
  reply : Option (Reply (Option Bool))
  deriving DecidableEq

/-- How a worker's loop ends. -/
inductive Exit where
  | completed
  | cancelled
  | failed (e : WorkerError)
  | panicked (reason : String)
  deriving DecidableEq

/-- The failure of a worker that leaves so. -/
def Exit.failure? (index : Nat) : Exit → Option WorkerError
  | .completed => none
  | .cancelled => none
  | .failed e => some e
  | .panicked reason => some (.panicked index reason)

/-- Where a worker stands. Times are in nanoseconds. -/
inductive Stage where
  /-- It waits for its start. -/
  | parked
  /-- It is at the head of its loop. -/
  | looping (iteration : Nat)
  /-- It has found no reason to stop before the iteration. -/
  | cleared (iteration : Nat)
  /-- It waits for the answer to its call. -/
  | calling (iteration : Nat) (drawn : Flags) (since : Nat)
  /-- It pauses after the iteration until the given time. -/
  | pausing (iteration wake : Nat)
  /-- Its loop is over. -/
  | leaving (e : Exit)
  /-- It has handed in its report. -/
  | gone (e : Exit)
  deriving DecidableEq

/-- What a worker did before it stopped. -/
structure WorkerReport where
  index : Nat
  tally : Tally
  /-- It was stopped early by the shutdown signal. -/
  cancelled : Bool
  failure : Option WorkerError
  deriving DecidableEq

/-- Whether a worker neither failed nor was stopped. -/
def WorkerReport.succeeded (r : WorkerReport) : Bool :=
  r.failure.isNone && !r.cancelled

/-- A worker. -/
structure Worker where
  index : Nat
  stage : Stage
  tally : Tally
  generator : Generator
  /-- Its calls, the last one first. -/
  calls : List Call
  deriving DecidableEq

namespace Worker

/-- A worker that waits for its start. -/
def launch (p : Plan) (entropy : Nat → Generator) (index : Nat) : Worker :=
  { index, stage := .parked, tally := Tally.empty, generator := p.generator entropy index, calls := [] }

/-- The iteration of its last call, zero before the first one. -/
def reached (w : Worker) : Nat :=
  match w.calls with
  | [] => 0
  | c :: _ => c.iteration

/-- The worker in another stage. -/
def goTo (w : Worker) (s : Stage) : Worker :=
  { w with stage := s }

/-- The worker breaks down. -/
def panic (w : Worker) (reason : String) : Worker × List Notice :=
  (w.goTo (.leaving (.panicked reason)), [.workerPanicked w.index reason])

/-- The worker is stopped by the shutdown signal. -/
def stop (w : Worker) : Worker × List Notice :=
  (w.goTo (.leaving .cancelled), [.workerCancelled w.index w.tally.totals.iterations])

/-- The wait for the start is over. -/
def release (w : Worker) (go : Bool) : Worker × List Notice :=
  match w.stage with
  | .parked =>
    if go then (w.goTo (.looping 1), [.workerStarted w.index])
    else (w.goTo (.leaving .cancelled), [.workerNotStarted w.index])
  | _ => (w, [])

/-- Looks at the bound and then at the shutdown signal. -/
def check (p : Plan) (w : Worker) (shutdown : Bool) : Worker × List Notice :=
  match w.stage with
  | .looping k =>
    if p.maxIterations ≤ k then (w.goTo (.leaving .completed), [])
    else if shutdown then w.stop
    else (w.goTo (.cleared k), [])
  | _ => (w, [])

/-- Draws the flags of an iteration and issues its call. -/
def issue (p : Plan) (w : Worker) (now : Nat) : Worker × List Notice :=
  match w.stage with
  | .cleared k =>
    let d := Draw.below (Draw.sides p.highPriorityOdds) w.generator
    let f := Draw.flagsOf d.1
    ({ w with
      stage := .calling k f now
      generator := d.2
      calls := ⟨k, now, f, p.request k f, none⟩ :: w.calls }, [])
  | _ => (w, [])

/-- The worker with the reply to its last call. -/
def noteReply (w : Worker) (r : Reply (Option Bool)) : Worker :=
  { w with
    calls := match w.calls with
      | [] => []
      | c :: rest => { c with reply := some r } :: rest }

/-- The sample of an iteration that was answered. -/
def sample (k : Nat) (f : Flags) (latency : Nat) (committed : Option Bool) : Sample :=
  { iteration := k
    kind := Plan.kindOf k
    highPriority := f.highPriority
    latency := Duration.clamped latency
    committed }

/-- What follows a tallied iteration: a pause, or the next one. -/
def proceed (p : Plan) (w : Worker) (k now : Nat) : Worker × List Notice :=
  if Plan.throttles p.throttleInterval k then
    match w.tally.recordPause with
    | .error o => w.panic o.message
    | .ok t =>
      ({ w with tally := t, stage := .pausing k (now + p.throttlePause.waited) },
        [.throttling w.index k p.throttlePause])
  else (w.goTo (.looping (k + 1)), [])

/-- Takes a tallied answer: a transaction aborted by its guard is noted, and is a failure where the
plan is strict. -/
def accept (p : Plan) (w : Worker) (k now : Nat) (committed : Option Bool) : Worker × List Notice :=
  if committed = some false then
    if p.strictGuard then
      (w.goTo (.leaving (.failed (.guarded w.index k))), [.guardHeld w.index k])
    else
      let r := w.proceed p k now
      (r.1, .guardHeld w.index k :: r.2)
  else w.proceed p k now

/-- The call comes back. -/
def receive (p : Plan) (w : Worker) (now : Nat) (reply : Reply (Option Bool)) :
    Worker × List Notice :=
  match w.stage with
  | .calling k f since =>
    let w := w.noteReply reply
    match reply with
    | .crashed payload => w.panic payload.message
    | .failed source =>
      let e := WorkerError.store w.index k (Plan.kindOf k) source
      (w.goTo (.leaving (.failed e)), [.callFailed e])
    | .answered committed =>
      match w.tally.consume (sample k f (now - since) committed) with
      | .error o => w.panic o.message
      | .ok t => { w with tally := t }.accept p k now committed
  | _ => (w, [])

/-- The pause is over. -/
def resume (w : Worker) : Worker × List Notice :=
  match w.stage with
  | .pausing k _ => (w.goTo (.looping (k + 1)), [])
  | _ => (w, [])

/-- The pause is ended by the shutdown signal. -/
def interrupt (w : Worker) : Worker × List Notice :=
  match w.stage with
  | .pausing _ _ => w.stop
  | _ => (w, [])

/-- Hands in the report. -/
def finish (w : Worker) : Worker × List Notice :=
  match w.stage with
  | .leaving e => (w.goTo (.gone e), [.workerFinished w.index])
  | _ => (w, [])

/-- The report of a worker that left so. A worker that broke down has no tally to hand in. -/
def reportOf (w : Worker) (e : Exit) : WorkerReport :=
  { index := w.index
    tally := match e with
      | .panicked _ => Tally.empty
      | _ => w.tally
    cancelled := e = .cancelled
    failure := e.failure? w.index }

/-- The report of a worker that is gone. -/
def report? (w : Worker) : Option WorkerReport :=
  match w.stage with
  | .gone e => some (w.reportOf e)
  | _ => none

/-- Whether the worker is gone. -/
def isGone (w : Worker) : Bool :=
  match w.stage with
  | .gone _ => true
  | _ => false

/-- A worker has a report exactly when it is gone. -/
theorem isSome_report? (w : Worker) : w.report?.isSome = w.isGone := by
  unfold report? isGone
  split <;> rfl

end Worker

end StoreSoak
