import StoreSoak.Signals
import StoreSoak.Store.Table

/-!
Tasks that wait for the signals.

A handshake holds the signals and a number of named tasks, each waiting for its start or for the
shutdown. After every step all tasks go as far as they can.

* `step` does one step and lets the tasks go on, `run` gives what there is to see after every step.
-/

namespace StoreSoak

/-- What a task waits for. -/
inductive Awaited where
  | started
  | cancelled
  deriving DecidableEq, Repr

/-- A task, with its answer once it has one. -/
structure Waiter where
  awaited : Awaited
  answer : Option Bool
  deriving DecidableEq, Repr

/-- The task after it has gone as far as it can. -/
def Waiter.settle (s : Signals) (w : Waiter) : Waiter :=
  match w.answer with
  | some _ => w
  | none =>
    { w with
      answer := match w.awaited with
        | .started => s.started
        | .cancelled => s.cancelled }

/-- The signals and the tasks that wait for them, by their names. -/
structure Handshake where
  signals : Signals
  waiters : List (String × Waiter)

namespace Handshake

/-- Fresh signals and no task. -/
def start : Handshake := ⟨Signals.fresh, []⟩

/-- One step of a handshake. -/
inductive Step where
  | start
  /-- Cancels through the handle, if it exists. -/
  | cancel
  | await (name : String) (awaited : Awaited)
  | dropLifecycle
  | dropHandle
  | look
  deriving Repr

/-- The effect of a step before the tasks go on. -/
def act (h : Handshake) : Step → Handshake
  | .start => { h with signals := h.signals.start }
  | .cancel => if h.signals.handle then { h with signals := h.signals.cancel } else h
  | .await name awaited => { h with waiters := h.waiters ++ [(name, ⟨awaited, none⟩)] }
  | .dropLifecycle => { h with signals := h.signals.dropLifecycle }
  | .dropHandle => { h with signals := h.signals.dropHandle }
  | .look => h

/-- Every task goes as far as it can. -/
def settle (h : Handshake) : Handshake :=
  { h with waiters := h.waiters.map fun w => (w.1, w.2.settle h.signals) }

/-- One step, and what the tasks make of it. -/
def step (h : Handshake) (s : Step) : Handshake :=
  (h.act s).settle

/-- Whether the handle shows the shutdown; nothing once the handle is given up. -/
def handleShows (h : Handshake) : Option Bool :=
  if h.signals.handle then some h.signals.shutdown else none

/-- The handshakes after each of the steps. -/
def run (h : Handshake) : List Step → List Handshake
  | [] => []
  | s :: rest =>
    let h := h.step s
    h :: run h rest

end Handshake

end StoreSoak
