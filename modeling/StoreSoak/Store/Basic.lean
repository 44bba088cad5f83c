import StoreSoak.Duration.Text
import StoreSoak.Text.Quoted

/-!
What a connection to a store is opened with, and what can go wrong on it.

* `ConnectOptions` is fixed for the lifetime of a connection.
* `StoreError` is what comes between the harness and a store; `StoreError.message` is the wording
  for people, `StoreError.debug` the form for diagnostics.
-/

namespace StoreSoak

/-- The settings of a connection. -/
structure ConnectOptions where
  /-- The limit of every call that waits for an answer. -/
  syncTimeout : Duration
  /-- The logical database selected at connect. -/
  database : Int
  deriving DecidableEq

namespace ConnectOptions

/-- The limit of a call when none is given, in milliseconds. -/
def defaultTimeoutMilliseconds : Nat := 5000

/-- Five seconds, and database zero. -/
def default : ConnectOptions :=
  ⟨Duration.ofMilliseconds defaultTimeoutMilliseconds, 0⟩

instance : Inhabited ConnectOptions := ⟨default⟩

end ConnectOptions

/-- Why a store did not do what it was asked. -/
inductive StoreError where
  /-- The connection could not be opened, was lost, or was already closed. -/
  | connection (reason : String)
  /-- A command reached the store and failed. -/
  | operation (reason : String)
  /-- A call did not complete within its limit. -/
  | timeout (limit : Duration)
  deriving DecidableEq

namespace StoreError

/-- The wording of an error. -/
def message : StoreError → String
  | .connection reason => "connection error: " ++ reason
  | .operation reason => "operation failed: " ++ reason
  | .timeout limit => "operation timed out after " ++ limit.text

/-- The error in diagnostics. -/
def debug : StoreError → String
  | .connection reason => "Connection(" ++ Text.quote reason ++ ")"
  | .operation reason => "Operation(" ++ Text.quote reason ++ ")"
  | .timeout limit => "Timeout(" ++ limit.text ++ ")"

/-- The name of the kind of error. -/
def kindName : StoreError → String
  | .connection _ => "Connection"
  | .operation _ => "Operation"
  | .timeout _ => "Timeout"

end StoreError

end StoreSoak
