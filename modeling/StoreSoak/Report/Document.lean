import StoreSoak.Json.Decode
import StoreSoak.Json.Printer
import StoreSoak.Ratio.Layout
import StoreSoak.Report

/-!
The report as a document.

* `toJson` is the record of the fields in their order, `document` its text on lines of its own,
  ended.
-/

namespace StoreSoak.Report

/-- The record of the fields in their order. -/
def toJson (r : Report) : Json :=
  .record [
    ("workers", .ofNat r.workers),
    ("completed", .ofNat r.completed),
    ("cancelled", .ofNat r.cancelled),
    ("failed", .ofNat r.failed),
    ("iterations", .ofNat r.iterations),
    ("transactional", .ofNat r.transactional),
    ("direct", .ofNat r.direct),
    ("high_priority", .ofNat r.highPriority),
    ("high_priority_ratio", .number (Ratio.Layout.documents.chars r.highPriorityRatio)),
    ("aborted_transactions", .ofNat r.abortedTransactions),
    ("throttle_pauses", .ofNat r.throttlePauses),
    ("average_latency", .ofDuration r.averageLatency),
    ("max_latency", .ofDuration r.maxLatency),
    ("elapsed", .ofDuration r.elapsed),
    ("pressure_chains", .ofNat r.pressureChains),
    ("pressure_executions", .ofNat r.pressureExecutions),
    ("sentinel_key", .ofText r.sentinelKey),
    ("sentinel_exists", .ofOption .bool r.sentinelExists),
    ("failures", .array (r.failures.map .ofText))]

/-- The characters of the document, its last line ended. -/
def documentChars (r : Report) : List Char :=
  Json.prettyChars 0 r.toJson ++ ['\n']

/-- The document of a report. -/
def document (r : Report) : String :=
  String.ofList r.documentChars

end StoreSoak.Report
