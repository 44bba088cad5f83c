import StoreSoak.Measure.Sample
import StoreSoak.Store.Basic

/-!
What ends the work of one worker before its time.

* `WorkerError.message` is the wording for people, `WorkerError.debug` the form for diagnostics.
* `WorkerError.worker` is the index of the worker that failed, in every case.
-/

namespace StoreSoak

/-- The first error of a worker, with which its work ends. -/
inductive WorkerError where
  /-- A call failed. -/
  | store (worker iteration : Nat) (kind : Kind) (source : StoreError)
  /-- A transaction was aborted by its guard where that counts as a failure. -/
  | guarded (worker iteration : Nat)
  /-- The worker broke down. -/
  | panicked (worker : Nat) (reason : String)
  deriving DecidableEq

namespace WorkerError

/-- The index of the worker that failed. -/
def worker : WorkerError → Nat
  | .store w _ _ _ => w
  | .guarded w _ => w
  | .panicked w _ => w

/-- The wording of an error. -/
def message : WorkerError → String
  | .store w i k source =>
    "worker " ++ toString w ++ " failed on iteration " ++ toString i ++ " (" ++ k.name ++ "): " ++
      source.message
  | .guarded w i =>
    "worker " ++ toString w ++ ": transaction aborted by its guard on iteration " ++ toString i
  | .panicked w reason => "worker " ++ toString w ++ " panicked: " ++ reason

/-- The error in diagnostics. -/
def debug : WorkerError → String
  | .store w i k source =>
    "Store \x7b worker: " ++ toString w ++ ", iteration: " ++ toString i ++ ", kind: " ++ k.name ++
      ", source: " ++ source.debug ++ " \x7d"
  | .guarded w i =>
    "PreconditionFailed \x7b worker: " ++ toString w ++ ", iteration: " ++ toString i ++ " \x7d"
  | .panicked w reason =>
    "Panicked \x7b worker: " ++ toString w ++ ", message: " ++ Text.quote reason ++ " \x7d"

/-- The error from which this one follows. -/
def source? : WorkerError → Option StoreError
  | .store _ _ _ source => some source
  | _ => none

end WorkerError

end StoreSoak
