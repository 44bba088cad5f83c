import StoreSoak.Ratio.Layout
import StoreSoak.Report
import StoreSoak.Text.Quoted

/-!
The report as text for people.

Every field stands on a line of its own, four blanks further in than the braces around them all;
what a field holds stands on further lines, and each ends with a comma. Texts are quoted, so that
none can break its line.

* `lines` are the lines, `text` is all of them, each ended.
-/

namespace StoreSoak.Report

/-- A line so many levels further in. -/
def indented (depth : Nat) (s : List Char) : List Char :=
  List.replicate (4 * depth) ' ' ++ s

/-- The line of a field that stands on one line. -/
def fieldLine (name : String) (value : List Char) : List Char :=
  indented 1 (name.toList ++ [':', ' '] ++ value ++ [','])

/-- A text in quotes, by the given rule of what is spelt out. -/
def quotedChars (unprintable : Char → Bool) (s : String) : List Char :=
  Text.Quoted.quoteChars unprintable s.toList

/-- The lines of the sentinel's answer. -/
def sentinelLines : Option Bool → List (List Char)
  | none => [fieldLine "sentinel_exists" "None".toList]
  | some b =>
    [indented 1 "sentinel_exists: Some(".toList,
      indented 2 ((if b then "true" else "false").toList ++ [',']),
      indented 1 "),".toList]

/-- The lines of the failures. -/
def failureLines (unprintable : Char → Bool) : List String → List (List Char)
  | [] => [fieldLine "failures" "[]".toList]
  | fs =>
    [indented 1 "failures: [".toList] ++
      fs.map (fun f => indented 2 (quotedChars unprintable f ++ [','])) ++
      [indented 1 "],".toList]

/-- The lines of the fields from the number of workers to the sentinel key. -/
def plainLines (unprintable : Char → Bool) (r : Report) : List (List Char) :=
  [fieldLine "workers" (Text.decimal r.workers),
    fieldLine "completed" (Text.decimal r.completed),
    fieldLine "cancelled" (Text.decimal r.cancelled),
    fieldLine "failed" (Text.decimal r.failed),
    fieldLine "iterations" (Text.decimal r.iterations),
    fieldLine "transactional" (Text.decimal r.transactional),
    fieldLine "direct" (Text.decimal r.direct),
    fieldLine "high_priority" (Text.decimal r.highPriority),
    fieldLine "high_priority_ratio" (Ratio.Layout.diagnostics.chars r.highPriorityRatio),
    fieldLine "aborted_transactions" (Text.decimal r.abortedTransactions),
    fieldLine "throttle_pauses" (Text.decimal r.throttlePauses),
    fieldLine "average_latency" r.averageLatency.textChars,
    fieldLine "max_latency" r.maxLatency.textChars,
    fieldLine "elapsed" r.elapsed.textChars,
    fieldLine "pressure_chains" (Text.decimal r.pressureChains),
    fieldLine "pressure_executions" (Text.decimal r.pressureExecutions),
    fieldLine "sentinel_key" (quotedChars unprintable r.sentinelKey)]

/-- The lines of a report. -/
def lines (unprintable : Char → Bool) (r : Report) : List (List Char) :=
  ["SoakReport \x7b".toList] ++ plainLines unprintable r ++ sentinelLines r.sentinelExists ++
    failureLines unprintable r.failures ++ [['\x7d']]

/-- The characters of a report, every line ended. -/
def textChars (unprintable : Char → Bool) (r : Report) : List Char :=
  (r.lines unprintable).flatMap fun l => l ++ ['\n']

/-- The report as text. -/
def text (r : Report) : String :=
  String.ofList (r.textChars Text.isUnprintable)

end StoreSoak.Report
