import StoreSoak.IoFault
import StoreSoak.Measure.Tally
import StoreSoak.Worker.Error

/-!
What a run can end with instead of a report.

A run that breaks down has no result, neither a report nor an error. It does so where the merged
tally of its workers overflows, and where it is to have more chains or workers than there is room
for: each chain has a counter and each worker a handle, and both stand in rows that can take up so
many bytes.

* `RunError` is the error of a run; `RunError.message` is the wording for people, `RunError.debug`
  the form for diagnostics, and `RunError.sources` are the wordings of the errors from which this
  one follows.
* `Breakdown` is a reason why a run breaks down; `Breakdown.ofChains?` and `Breakdown.ofWorkers?`
  say which numbers there is no room for.
-/

namespace StoreSoak

/-- The error of a run. -/
inductive RunError where
  | store (e : StoreError)
  /-- So many workers failed; the first of their failures. -/
  | workersFailed (failed : Nat) (first : WorkerError)
  /-- The report could not be put out, or the operator not be waited for. -/
  | io (f : IoFault)
  deriving DecidableEq

namespace RunError

/-- The wording of an error. -/
def message : RunError → String
  | .store e => e.message
  | .workersFailed failed first =>
    toString failed ++ " worker(s) failed; first failure: " ++ first.message
  | .io f => "operator acknowledgment failed: " ++ f.message

/-- The error in diagnostics. -/
def debug : RunError → String
  | .store e => "Store(" ++ e.debug ++ ")"
  | .workersFailed failed first =>
    "WorkersFailed \x7b failed: " ++ toString failed ++ ", first: " ++ first.debug ++ " \x7d"
  | .io f => "Io(" ++ f.debug ++ ")"

/-- The wordings of the errors from which this one follows. The error of a store is shown as it is
and follows from nothing. -/
def sources : RunError → List String
  | .io f => [f.message]
  | _ => []

/-- The name of the kind of error. -/
def kindName : RunError → String
  | .store _ => "Store"
  | .workersFailed _ _ => "WorkersFailed"
  | .io _ => "Io"

end RunError

/-- A reason why a run breaks down. -/
inductive Breakdown where
  /-- The merged tally of the workers overflows. -/
  | overflow (o : Overflow)
  /-- There is no room for the counters of so many chains. -/
  | tooManyChains
  /-- There is no room for the handles of so many workers. -/
  | tooManyWorkers
  deriving DecidableEq, Repr

namespace Breakdown

/-- The wording of a breakdown. -/
def message : Breakdown → String
  | .overflow o => o.message
  | .tooManyChains => "called `Result::unwrap()` on an `Err` value: LayoutError"
  | .tooManyWorkers => "capacity overflow"

/-- The most bytes that a row can take up: half of all that can be addressed, less one word. -/
def rowLimit : Nat := 9223372036854775800

/-- The breakdown of a run with so many chains: a counter takes up one word of eight bytes, and the
row of counters has a head of two words. -/
def ofChains? (chains : Nat) : Option Breakdown :=
  if 8 * chains + 16 ≤ rowLimit then none else some .tooManyChains

/-- The breakdown of a run with so many workers: a handle takes up one word of eight bytes. -/
def ofWorkers? (workers : Nat) : Option Breakdown :=
  if 8 * workers ≤ rowLimit then none else some .tooManyWorkers

end Breakdown

end StoreSoak
