import StoreSoak.Draw.Odds
import StoreSoak.Duration
import StoreSoak.Measure.Sample

/-!
What a run is to do.

A `Config` holds everything a run needs besides the connection; every field has a default. The part
that all workers share is its `Plan`.

* `Config.plan` takes the plan out of a configuration.
* `Plan.last` is the number of iterations of a worker that nothing stops.
-/

namespace StoreSoak

/-- What happens to the other workers when one fails. -/
inductive FailurePolicy where
  /-- They are asked to stop. -/
  | abort
  /-- They run on. -/
  | «continue»
  deriving DecidableEq, Repr

/-- The name of a policy. -/
def FailurePolicy.name : FailurePolicy → String
  | .abort => "Abort"
  | .continue => "Continue"

/-- How many chains keep the scheduler busy. -/
inductive ChainCount where
  /-- As many as there are processors. -/
  | perProcessor
  | fixed (n : Nat)
  deriving DecidableEq, Repr

/-- The number of chains on a machine with so many processors. -/
def ChainCount.resolve (processors : Nat) : ChainCount → Nat
  | .perProcessor => processors
  | .fixed n => n

namespace Config

/-- The address that is connected to when none is given. -/
def defaultAddress : String := "localhost:6379"

/-- The key that all workers write. -/
def defaultSharedKey : String := "kvsoak:shared"

/-- The key that guards the transactions. -/
def defaultGuardKey : String := "kvsoak:guard"

/-- The key that is looked for after the run. -/
def defaultSentinelKey : String := "kvsoak:sentinel"

/-- The value that all workers write. It is long on purpose, so that writing it takes time. -/
def defaultPayload : String :=
  "The quick brown fox jumps over the lazy dog while the multiplexer juggles a thousand callers " ++
  "on a single socket; every reply must find its way back to the caller that asked for it, no " ++
  "matter how the scheduler shuffles the tasks, how long the server stalls, or how many " ++
  "high-priority commands try to cut the line. This value is deliberately long so that every " ++
  "write spends real time on the wire and in the client's outbound buffer."

end Config

/-- The configuration of a run. -/
structure Config where
  workers : Nat := 1000
  /-- The first iteration that is not run; they are counted from one. -/
  maxIterations : Nat := 5000000
  /-- A worker pauses after every iteration that is a multiple of this; never if it is zero. -/
  throttleInterval : Nat := 10000
  throttlePause : Duration := Duration.ofSeconds 5
  /-- One draw in so many selects the high priority. -/
  highPriorityOdds : UInt32 := 10
  database : Int := 0
  sharedKey : String := Config.defaultSharedKey
  guardKey : String := Config.defaultGuardKey
  sentinelKey : String := Config.defaultSentinelKey
  payload : String := Config.defaultPayload
  /-- The base of the workers' seeds; without it every worker has a seed of its own. -/
  seed : Option UInt64 := none
  chains : ChainCount := .perProcessor
  failurePolicy : FailurePolicy := .abort
  /-- Whether a transaction that its guard aborts is a failure. -/
  strictGuard : Bool := false
  /-- After this time every worker is asked to stop. -/
  deadline : Option Duration := none
  /-- Whether the operator is waited for before the connection is released. -/
  waitForAck : Bool := true
  deriving DecidableEq

/-- What all workers of a run share. -/
structure Plan where
  sharedKey : String
  guardKey : String
  payload : String
  maxIterations : Nat
  throttleInterval : Nat
  throttlePause : Duration
  highPriorityOdds : UInt32
  strictGuard : Bool
  seed : Option UInt64
  deriving DecidableEq

/-- The plan of a configuration. -/
def Config.plan (c : Config) : Plan :=
  { sharedKey := c.sharedKey
    guardKey := c.guardKey
    payload := c.payload
    maxIterations := c.maxIterations
    throttleInterval := c.throttleInterval
    throttlePause := c.throttlePause
    highPriorityOdds := c.highPriorityOdds
    strictGuard := c.strictGuard
    seed := c.seed }

namespace Plan

/-- The number of iterations of a worker that nothing stops. -/
def last (p : Plan) : Nat :=
  p.maxIterations - 1

/-- The way in which an iteration goes: a transaction if its number is even, else a direct set. -/
def kindOf (iteration : Nat) : Kind :=
  if iteration % 2 = 0 then .transactional else .direct

/-- Whether a worker pauses after an iteration: after the multiples of the interval, never at zero,
and never if the interval is zero. -/
def throttles (interval iteration : Nat) : Bool :=
  interval ≠ 0 && iteration ≠ 0 && iteration % interval = 0

/-- The generator of a worker: from the plan's seed, or else from the one the surroundings give. -/
def generator (p : Plan) (entropy : Nat → Generator) (index : Nat) : Generator :=
  match p.seed with
  | some base => Generator.ofWorker base index
  | none => entropy index

end Plan

end StoreSoak
