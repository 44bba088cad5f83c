import StoreSoak.Worker.Error

/-!
What a run notes while it goes on.

Every notice has a wording; how much it matters and where its lines go is decided elsewhere.
-/

namespace StoreSoak

/-- Something worth noting. -/
inductive Notice where
  | spawning (workers : Nat)
  | joining (workers : Nat)
  | workerStarted (worker : Nat)
  | workerNotStarted (worker : Nat)
  | guardHeld (worker iteration : Nat)
  | callFailed (e : WorkerError)
  | throttling (worker iteration : Nat) (pause : Duration)
  | workerCancelled (worker iterations : Nat)
  | workerPanicked (worker : Nat) (reason : String)
  | aborting (worker : Nat)
  | workerFinished (worker : Nat)
  | shutdownRequested
  | chainsStarting (chains : Nat)
  | chainStopping (chain : Nat)
  | chainsRetired (links : Nat)
  | deadlineReached (limit : Duration)
  | running (workers iterations : Nat)
  | allJoined
  | sentinelFailed (key : String) (e : StoreError)
  | released
  | memoryOpened (address : String)
  | connecting (url : String) (limit : Duration)
  | disconnecting
  | urgentSet (key : String)
  | urgentTransaction
  | runFinished (iterations workers : Nat) (elapsed : Duration)
  deriving DecidableEq

namespace Notice

/-- The wording of a notice. -/
def text : Notice → String
  | .spawning n => "Spawning " ++ toString n ++ " workers..."
  | .joining n => "Waiting for " ++ toString n ++ " workers to finish..."
  | .workerStarted w => "Worker " ++ toString w ++ " started."
  | .workerNotStarted w => "Worker " ++ toString w ++ " shut down before start."
  | .guardHeld w i =>
    "Worker " ++ toString w ++ ": guarded transaction aborted on iteration " ++ toString i
  | .callFailed e => e.message
  | .throttling w i pause =>
    "Worker " ++ toString w ++ " throttling for " ++ pause.text ++ " after iteration " ++ toString i
  | .workerCancelled w n =>
    "Worker " ++ toString w ++ " cancelled after " ++ toString n ++ " iterations."
  | .workerPanicked w reason => "Worker " ++ toString w ++ " panicked: " ++ reason
  | .aborting w => "Worker " ++ toString w ++ " failed; aborting the pool."
  | .workerFinished w => "Worker " ++ toString w ++ " finished."
  | .shutdownRequested => "Shutdown requested."
  | .chainsStarting n => "Starting " ++ toString n ++ " scheduler-pressure chains..."
  | .chainStopping c => "Pressure chain " ++ toString c ++ " stopping."
  | .chainsRetired n => "Scheduler-pressure chains retired after " ++ toString n ++ " links."
  | .deadlineReached limit =>
    "Run deadline of " ++ limit.text ++ " reached, stopping workers."
  | .running w n =>
    "Running " ++ toString w ++ " workers for " ++ toString n ++ " iterations each"
  | .allJoined => "All workers joined."
  | .sentinelFailed key e => "Sentinel check on '" ++ key ++ "' failed: " ++ e.message
  | .released => "Connection released."
  | .memoryOpened address => "Opening in-memory store (address " ++ address ++ " ignored)"
  | .connecting url limit => "Connecting to " ++ url ++ " (sync timeout " ++ limit.text ++ ")"
  | .disconnecting => "Closing redis connection"
  | .urgentSet key => "high-priority SET " ++ key
  | .urgentTransaction => "high-priority transaction"
  | .runFinished n w elapsed =>
    "Soak finished: " ++ toString n ++ " iterations across " ++ toString w ++ " workers in " ++
      elapsed.text

end Notice

end StoreSoak
