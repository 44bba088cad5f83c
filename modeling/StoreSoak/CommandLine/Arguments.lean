import StoreSoak.Config
import StoreSoak.Store.Basic
import StoreSoak.Text.Basic

/-!
What a command line can ask for.

Every option and every switch has a `Name`. A `Choice` is a switch, or an option with its value. The
`Arguments` are the choices of a whole command line over their defaults; the options of the
connection and the configuration of the run are made of them.

* `Choice.read` reads the value of an option.
* `Arguments.choose` makes one choice.
* `Arguments.connectOptions` and `Arguments.config` are what the run is given.
-/

namespace StoreSoak.CommandLine

/-- Which kind of store is used. -/
inductive Backend where
  /-- A remote store. -/
  | remote
  /-- The store inside the process. -/
  | memory
  deriving DecidableEq, Repr

/-- The form in which the report is put out. -/
inductive ReportFormat where
  | text
  | document
  deriving DecidableEq, Repr

/-- The options and switches. -/
inductive Name where
  | address
  | backend
  | syncTimeout
  | database
  | workers
  | iterations
  | throttleInterval
  | throttlePause
  | highPriorityOdds
  | seed
  | pressureUnits
  | noPressure
  | failurePolicy
  | strictGuard
  | duration
  | noWait
  | report
  | workerThreads
  deriving DecidableEq, Repr

namespace Name

/-- Every name. -/
def all : List Name :=
  [.address, .backend, .syncTimeout, .database, .workers, .iterations, .throttleInterval,
    .throttlePause, .highPriorityOdds, .seed, .pressureUnits, .noPressure, .failurePolicy,
    .strictGuard, .duration, .noWait, .report, .workerThreads]

/-- The name as it is written after two dashes. -/
def text : Name → String
  | .address => "address"
  | .backend => "backend"
  | .syncTimeout => "sync-timeout-ms"
  | .database => "database"
  | .workers => "workers"
  | .iterations => "iterations"
  | .throttleInterval => "throttle-interval"
  | .throttlePause => "throttle-pause-ms"
  | .highPriorityOdds => "high-priority-odds"
  | .seed => "seed"
  | .pressureUnits => "pressure-units"
  | .noPressure => "no-pressure"
  | .failurePolicy => "failure-policy"
  | .strictGuard => "strict-guard"
  | .duration => "duration"
  | .noWait => "no-wait"
  | .report => "report"
  | .workerThreads => "worker-threads"

/-- What the option or switch is for. -/
def help : Name → String
  | .address => "Store address (host:port or URL)"
  | .backend => "Kind of store: redis or memory"
  | .syncTimeout => "Per-call timeout in milliseconds"
  | .database => "Logical database"
  | .workers => "Number of workers"
  | .iterations => "Exclusive iteration bound per worker"
  | .throttleInterval => "A worker pauses after so many iterations"
  | .throttlePause => "Length of a pause in milliseconds"
  | .highPriorityOdds => "One in N operations is high priority"
  | .seed => "Base seed for per-worker random draws"
  | .pressureUnits => "Scheduler-pressure chains (default: available CPUs)"
  | .noPressure => "Disable the scheduler-pressure generator"
  | .failurePolicy => "What a failure means for the other workers: abort or continue"
  | .strictGuard => "Fail a worker when its guarded transaction aborts"
  | .duration => "Stop all workers after this many seconds"
  | .noWait => "Exit without waiting for the operator"
  | .report => "Form of the report: text or json"
  | .workerThreads => "Runtime worker threads"

/-- Whether the name is that of a switch, which has no value. -/
def isSwitch : Name → Bool
  | .noPressure | .strictGuard | .noWait => true
  | _ => false

/-- The name that is written so. -/
def ofText? (s : String) : Option Name :=
  all.find? fun n => n.text = s

theorem ofText?_text (n : Name) : ofText? n.text = some n := by
  cases n <;> decide

end Name

/-- A switch, or an option with its value. -/
inductive Choice where
  | address (s : String)
  | backend (b : Backend)
  | syncTimeout (milliseconds : Nat)
  | database (index : Int)
  | workers (n : Nat)
  | iterations (n : Nat)
  | throttleInterval (n : Nat)
  | throttlePause (milliseconds : Nat)
  | highPriorityOdds (n : UInt32)
  | seed (n : UInt64)
  | pressureUnits (n : Nat)
  | noPressure
  | failurePolicy (p : FailurePolicy)
  | strictGuard
  | duration (seconds : Nat)
  | noWait
  | report (f : ReportFormat)
  | workerThreads (n : Nat)
  deriving DecidableEq, Repr

namespace Choice

/-- The option or switch that is chosen. -/
def name : Choice → Name
  | .address _ => .address
  | .backend _ => .backend
  | .syncTimeout _ => .syncTimeout
  | .database _ => .database
  | .workers _ => .workers
  | .iterations _ => .iterations
  | .throttleInterval _ => .throttleInterval
  | .throttlePause _ => .throttlePause
  | .highPriorityOdds _ => .highPriorityOdds
  | .seed _ => .seed
  | .pressureUnits _ => .pressureUnits
  | .noPressure => .noPressure
  | .failurePolicy _ => .failurePolicy
  | .strictGuard => .strictGuard
  | .duration _ => .duration
  | .noWait => .noWait
  | .report _ => .report
  | .workerThreads _ => .workerThreads

end Choice

/-- What can be wrong with the value of an option. -/
inductive ValueFault where
  /-- It is none of the names that can be chosen. -/
  | notOffered
  /-- It is no number, or none of the option's range. -/
  | notInRange
  deriving DecidableEq, Repr

namespace Choice

/-- A number of 64 bits. -/
def natural (s : String) : Except ValueFault Nat :=
  match Text.natural? s.toList with
  | some n => .ok n
  | none => .error .notInRange

/-- An integer of 64 bits. -/
def integer (s : String) : Except ValueFault Int :=
  match Text.integer? s.toList with
  | some i => .ok i
  | none => .error .notInRange

/-- A number of 32 bits. -/
def small (s : String) : Except ValueFault UInt32 :=
  match Text.integer? s.toList with
  | some i => if 0 ≤ i && i < 4294967296 then .ok (UInt32.ofNat i.toNat) else .error .notInRange
  | none => .error .notInRange

/-- One of the names on offer. -/
def offered {α : Type} (offer : List (String × α)) (s : String) : Except ValueFault α :=
  match offer.lookup s with
  | some a => .ok a
  | none => .error .notOffered

/-- The choice of a name with the text of its value; a switch has none and passes it over. -/
def read (n : Name) (s : String) : Except ValueFault Choice :=
  match n with
  | .address => .ok (.address s)
  | .backend => (offered [("redis", Backend.remote), ("memory", .memory)] s).map .backend
  | .syncTimeout => (natural s).map .syncTimeout
  | .database => (integer s).map .database
  | .workers => (natural s).map .workers
  | .iterations => (natural s).map .iterations
  | .throttleInterval => (natural s).map .throttleInterval
  | .throttlePause => (natural s).map .throttlePause
  | .highPriorityOdds => (small s).map .highPriorityOdds
  | .seed => (natural s).map fun n => .seed (UInt64.ofNat n)
  | .pressureUnits => (natural s).map .pressureUnits
  | .noPressure => .ok .noPressure
  | .failurePolicy =>
    (offered [("abort", FailurePolicy.abort), ("continue", .continue)] s).map .failurePolicy
  | .strictGuard => .ok .strictGuard
  | .duration => (natural s).map .duration
  | .noWait => .ok .noWait
  | .report => (offered [("text", ReportFormat.text), ("json", .document)] s).map .report
  | .workerThreads => (natural s).map .workerThreads

end Choice

/-- The choices of a command line over their defaults. -/
structure Arguments where
  address : String := Config.defaultAddress
  backend : Backend := .remote
  /-- In milliseconds. -/
  syncTimeout : Nat := ConnectOptions.defaultTimeoutMilliseconds
  database : Int := 0
  workers : Nat := 1000
  iterations : Nat := 5000000
  throttleInterval : Nat := 10000
  /-- In milliseconds. -/
  throttlePause : Nat := 5000
  highPriorityOdds : UInt32 := 10
  seed : Option UInt64 := none
  pressureUnits : Option Nat := none
  noPressure : Bool := false
  failurePolicy : FailurePolicy := .abort
  strictGuard : Bool := false
  /-- In seconds. -/
  duration : Option Nat := none
  noWait : Bool := false
  report : ReportFormat := .text
  workerThreads : Option Nat := none
  deriving DecidableEq, Repr

namespace Arguments

/-- The arguments with one more choice. -/
def choose (a : Arguments) : Choice → Arguments
  | .address s => { a with address := s }
  | .backend b => { a with backend := b }
  | .syncTimeout n => { a with syncTimeout := n }
  | .database i => { a with database := i }
  | .workers n => { a with workers := n }
  | .iterations n => { a with iterations := n }
  | .throttleInterval n => { a with throttleInterval := n }
  | .throttlePause n => { a with throttlePause := n }
  | .highPriorityOdds n => { a with highPriorityOdds := n }
  | .seed n => { a with seed := some n }
  | .pressureUnits n => { a with pressureUnits := some n }
  | .noPressure => { a with noPressure := true }
  | .failurePolicy p => { a with failurePolicy := p }
  | .strictGuard => { a with strictGuard := true }
  | .duration n => { a with duration := some n }
  | .noWait => { a with noWait := true }
  | .report f => { a with report := f }
  | .workerThreads n => { a with workerThreads := some n }

/-- The settings of the connection. -/
def connectOptions (a : Arguments) : ConnectOptions :=
  ⟨Duration.ofMilliseconds a.syncTimeout, a.database⟩

/-- The number of pressure chains: none if they are switched off, else as many as asked for, else as
many as there are processors. -/
def chains (a : Arguments) : ChainCount :=
  if a.noPressure then .fixed 0
  else
    match a.pressureUnits with
    | some n => .fixed n
    | none => .perProcessor

/-- The configuration of the run. -/
def config (a : Arguments) : Config :=
  { workers := a.workers
    maxIterations := a.iterations
    throttleInterval := a.throttleInterval
    throttlePause := Duration.ofMilliseconds a.throttlePause
    highPriorityOdds := a.highPriorityOdds
    database := a.database
    seed := a.seed
    chains := a.chains
    failurePolicy := a.failurePolicy
    strictGuard := a.strictGuard
    deadline := a.duration.map Duration.ofSeconds
    waitForAck := !a.noWait }

end Arguments

end StoreSoak.CommandLine
