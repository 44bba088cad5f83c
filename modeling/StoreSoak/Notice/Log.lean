import StoreSoak.Notice
import StoreSoak.Text.Basic

/-!
Notices as lines of a log.

A notice is written as its level and its wording. The wording may hold text from anywhere, so the
control characters that a terminal acts on are spelt out. Where the wording has line ends the notice
takes several lines, each without the blanks before it.

* `Notice.level` says how much a notice matters.
* `spell` says how one character is written.
* `logLines` are the lines of a notice.
-/

namespace StoreSoak

/-- How much a notice matters. -/
inductive Level where
  | trace
  | debug
  | info
  | warn
  | error
  deriving DecidableEq, Repr

/-- The name of a level. -/
def Level.name : Level → String
  | .trace => "TRACE"
  | .debug => "DEBUG"
  | .info => "INFO"
  | .warn => "WARN"
  | .error => "ERROR"

namespace Notice

/-- How much a notice matters. -/
def level : Notice → Level
  | .spawning _ | .joining _ | .chainsStarting _ | .chainsRetired _ | .running _ _ | .allJoined
  | .released | .connecting _ _ | .disconnecting | .runFinished _ _ _ => .info
  | .workerStarted _ | .workerNotStarted _ | .throttling _ _ _ | .workerCancelled _ _
  | .workerFinished _ | .shutdownRequested | .chainStopping _ | .memoryOpened _ => .debug
  | .guardHeld _ _ | .aborting _ | .deadlineReached _ => .warn
  | .callFailed _ | .workerPanicked _ _ | .sentinelFailed _ _ => .error
  | .urgentSet _ | .urgentTransaction => .trace

/-- The spelling of a code point by two hexadecimal digits. -/
def hexPair (n : Nat) : List Char :=
  '\\' :: 'x' :: (if n < 16 then ['0'] else []) ++ Nat.toDigits 16 n

/-- How one character is written: the bell, the backspace, the form feed, the escape and the delete
character, and the second block of control characters, are spelt out. -/
def spell (c : Char) : List Char :=
  if [7, 8, 12, 27, 127].contains c.toNat then hexPair c.toNat
  else if 128 ≤ c.toNat && c.toNat ≤ 159 then Text.Quoted.codePoint c
  else [c]

/-- Whether a character is white space. -/
def isBlank (c : Char) : Bool :=
  let n := c.toNat
  (9 ≤ n && n ≤ 13) || n = 32 || n = 133 || n = 160 || n = 5760 || (8192 ≤ n && n ≤ 8202) ||
    n = 8232 || n = 8233 || n = 8239 || n = 8287 || n = 12288

/-- A line without the carriage return at its end and the blanks before it. -/
def trimLine (s : List Char) : List Char :=
  let s := if s.getLast? = some '\r' then s.dropLast else s
  s.dropWhile isBlank

/-- The lines of a notice. -/
def logLines (n : Notice) : List String :=
  (Text.splitOn '\n' ((n.level.name.toList ++ ' ' :: n.text.toList).flatMap spell)).map fun l =>
    String.ofList (trimLine l)

end Notice

end StoreSoak
