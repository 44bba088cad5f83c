import StoreSoak.Run

/-!
Runs under a clock of their own.

Computing takes no time, and time goes by only when everything waits: the clock then jumps to the
next moment at which something can go on. What is due at the same moment goes on in a fixed order:
signals from outside first, then the worker whose last call is of the lowest iteration, then the one
with the lowest index.

* `due` is the moment at which a worker can go on, given how long its call takes, and `slot?` its
  place in the order.
* A `Queue` holds the workers that share the first slot. It is gone through in order, and made anew
  when nobody in it can go on at its slot any more, or when a signal has changed since.
* `Pool.simulate` takes a pool to its end, `Run.simulate` a run. Each worker makes a bounded number
  of moves, which bounds their number of steps.
-/

namespace StoreSoak

/-- How long a call takes, in nanoseconds. -/
abbrev Latency := Caller → Nat

namespace Pool

variable {σ : Type}

/-- The moment at which a worker can go on, if there is one in sight. -/
@[inline] def due (latency : Latency) (p : Pool σ) (w : Worker) : Option Nat :=
  match w.stage with
  | .parked => if p.signals.started.isSome then some p.now else none
  | .looping _ => some p.now
  | .cleared _ => some p.now
  | .calling k _ since => some (max p.now (since + latency ⟨w.index, k⟩))
  | .pausing _ wake => if p.signals.shutdown then some p.now else some (max p.now wake)
  | .leaving _ => some p.now
  | .gone _ => none

/-- The event by which a worker goes on at its moment. -/
def eventOf (p : Pool σ) (w : Worker) : Event :=
  match w.stage with
  | .pausing _ wake => if p.now < wake && p.signals.shutdown then .interrupt w.index else .turn w.index
  | _ => .turn w.index

/-- A place in the order: a moment, and the iteration of the last call before it. -/
structure Slot where
  time : Nat
  reached : Nat
  deriving DecidableEq, Repr

/-- Whether a slot comes before another one. -/
def Slot.isBefore (a b : Slot) : Bool :=
  a.time < b.time || (a.time = b.time && a.reached < b.reached)

/-- The slot of a worker, if there is a moment in sight at which it can go on. -/
@[inline] def slot? (latency : Latency) (p : Pool σ) (w : Worker) : Option Slot :=
  match p.due latency w with
  | none => none
  | some t => some ⟨t, w.reached⟩

/-- The first slot of all. -/
def firstSlot? (latency : Latency) (p : Pool σ) : Option Slot :=
  p.workers.foldl (fun best w =>
    match p.slot? latency w, best with
    | none, _ => best
    | some s, none => some s
    | some s, some b => if s.isBefore b then some s else best) none

/-- Workers that go on at the same slot, in order, while the signals are the same. -/
structure Queue where
  signals : Signals
  slot : Slot
  workers : List Nat

/-- The queue without workers. -/
def Queue.empty : Queue := ⟨Signals.fresh, ⟨0, 0⟩, []⟩

/-- The queue of the workers that go on first. -/
def gather (latency : Latency) (p : Pool σ) : Queue :=
  match p.firstSlot? latency with
  | none => Queue.empty
  | some s =>
    ⟨p.signals, s, (p.workers.toList.filter fun w => p.slot? latency w = some s).map Worker.index⟩

/-- Whether a worker can go on at a slot. -/
def isUp (latency : Latency) (p : Pool σ) (s : Slot) (i : Nat) : Bool :=
  match p.workers[i]? with
  | none => false
  | some w => p.slot? latency w = some s

/-- The workers at the head of the queue that cannot go on at its slot any more leave it. If nobody
is left in it, or a signal has changed, another queue is made. -/
def renew (latency : Latency) (p : Pool σ) (q : Queue) : Queue :=
  let left :=
    if q.signals = p.signals then q.workers.dropWhile fun i => !p.isUp latency q.slot i else []
  if left.isEmpty then p.gather latency else { q with workers := left }

/-- A moment, and the event by which a worker goes on at it. -/
structure Ready where
  time : Nat
  event : Event

/-- What the worker at the head of the queue does, if there is one. -/
def ready? (p : Pool σ) (q : Queue) : Option Ready :=
  match q.workers with
  | [] => none
  | i :: _ =>
    match p.workers[i]? with
    | none => none
    | some w => some ⟨q.slot.time, p.eventOf w⟩

/-- The pool at a moment that has not passed yet. -/
def advance (p : Pool σ) (time : Nat) : Pool σ :=
  { p with now := max p.now time }

/-- Whether an event decides about the start. -/
def Event.isRelease : Event → Bool
  | .start => true
  | .dropLifecycle => true
  | _ => false

/-- A bound on the number of moves of all workers. -/
def fuel (p : Pool σ) : Nat :=
  p.workers.size * (4 * p.plan.maxIterations + 8)

/-- The pool at its end: all workers gone, and the start decided about. The events from outside come
with their moments, in order. -/
def simulate (db : Database σ) (latency : Latency) :
    Nat → List (Nat × Event) → Queue → Pool σ → Pool σ
  | 0, _, _, p => p
  | fuel + 1, timers, q, p =>
    let q := p.renew latency q
    match timers, p.ready? q with
    | [], none => p
    | [], some r => simulate db latency fuel [] q ((p.advance r.time).step db r.event)
    | t :: rest, none =>
      if p.isOver && !((t :: rest).any fun t => t.2.isRelease) then p
      else simulate db latency fuel rest q ((p.advance t.1).step db t.2)
    | t :: rest, some r =>
      if t.1 ≤ r.time then simulate db latency fuel rest q ((p.advance t.1).step db t.2)
      else simulate db latency fuel (t :: rest) q ((p.advance r.time).step db r.event)

/-- The pool at its end. -/
def complete (db : Database σ) (latency : Latency) (timers : List (Nat × Event)) (p : Pool σ) :
    Pool σ :=
  simulate db latency (p.fuel + timers.length + 1) timers Queue.empty p

end Pool

namespace Run

variable {σ : Type}

/-- A moment and what happens then. -/
structure Appointment where
  time : Nat
  event : Event

/-- The appointment with the deadline. -/
def alarmAt (r : Run σ) : Option Appointment :=
  r.alarm.map fun t => ⟨t, .alarm⟩

/-- The earlier of two appointments, the first one if they coincide. -/
def earlier : Option Appointment → Option Appointment → Option Appointment
  | none, b => b
  | a, none => a
  | some a, some b => if a.time ≤ b.time then some a else some b

/-- A worker's event as one of the run. -/
def ofPoolEvent : Pool.Event → Event
  | .turn i => .turn i
  | .interrupt i => .interrupt i
  | .tick d => .tick d
  | _ => .cancel

/-- What the worker at the head of a queue does. -/
def workerNext (r : Run σ) (q : Pool.Queue) : Option Appointment :=
  (r.pool.ready? q).map fun w => ⟨w.time, ofPoolEvent w.event⟩

/-- The next thing that happens from outside the pool. -/
def outside (cancelAt : Option Nat) (r : Run σ) : Option Appointment :=
  earlier r.alarmAt <|
    if r.pool.signals.shutdown then none else cancelAt.map fun t => ⟨t, .cancel⟩

/-- What happens next while the workers are waited for, and after that the moves of the run itself;
chains are taken further only once they are waited for. -/
def next (cancelAt : Option Nat) (q : Pool.Queue) (r : Run σ) : Appointment :=
  let control : Appointment := ⟨r.pool.now, .control⟩
  match r.phase with
  | .gathering =>
    match r.workerNext q with
    | some w => (earlier (r.outside cancelAt) (some w)).getD control
    | none => if r.pool.isOver then control else (r.outside cancelAt).getD control
  | .retiring => if r.pressure.isOver then control else ⟨r.pool.now, .link 0⟩
  | _ => control

/-- The queue of a run, which is needed while the workers are waited for. -/
def renew (latency : Latency) (r : Run σ) (q : Pool.Queue) : Pool.Queue :=
  match r.phase with
  | .gathering => r.pool.renew latency q
  | _ => q

/-- A bound on the number of moves of a run. -/
def fuel (s : Setting σ) : Nat :=
  s.config.workers * (4 * s.config.maxIterations + 8) +
    3 * chainCount s + 16

/-- The run at its end. -/
def simulate (s : Setting σ) (latency : Latency) (cancelAt : Option Nat) :
    Nat → Pool.Queue → Run σ → Run σ
  | 0, _, r => r
  | fuel + 1, q, r =>
    match r.phase with
    | .ended _ => r
    | _ =>
      let q := r.renew latency q
      let a := r.next cancelAt q
      simulate s latency cancelAt fuel q (({ r with pool := r.pool.advance a.time }).step s a.event)

/-- The run at its end. -/
def complete (s : Setting σ) (latency : Latency) (cancelAt : Option Nat) (r : Run σ) : Run σ :=
  simulate s latency cancelAt (fuel s) Pool.Queue.empty r

end Run

end StoreSoak
