import StoreSoak.Text.Quoted

/-!
Faults of input and output.

A fault is of a kind and may carry a wording of its own; without one its kind is its wording.
-/

namespace StoreSoak

/-- The kinds of input and output faults. -/
inductive IoKind where
  | timedOut
  | wouldBlock
  | connectionRefused
  | notFound
  | brokenPipe
  | connectionReset
  | unexpectedEof
  | invalidData
  | permissionDenied
  | invalidInput
  | notADirectory
  | networkUnreachable
  | addressNotAvailable
  | other
  deriving DecidableEq, Repr

namespace IoKind

/-- Every kind. -/
def all : List IoKind :=
  [.timedOut, .wouldBlock, .connectionRefused, .notFound, .brokenPipe, .connectionReset,
    .unexpectedEof, .invalidData, .permissionDenied, .invalidInput, .notADirectory,
    .networkUnreachable, .addressNotAvailable, .other]

/-- The name of a kind. -/
def name : IoKind → String
  | .timedOut => "TimedOut"
  | .wouldBlock => "WouldBlock"
  | .connectionRefused => "ConnectionRefused"
  | .notFound => "NotFound"
  | .brokenPipe => "BrokenPipe"
  | .connectionReset => "ConnectionReset"
  | .unexpectedEof => "UnexpectedEof"
  | .invalidData => "InvalidData"
  | .permissionDenied => "PermissionDenied"
  | .invalidInput => "InvalidInput"
  | .notADirectory => "NotADirectory"
  | .networkUnreachable => "NetworkUnreachable"
  | .addressNotAvailable => "AddrNotAvailable"
  | .other => "Other"

/-- The wording of a kind. -/
def text : IoKind → String
  | .timedOut => "timed out"
  | .wouldBlock => "operation would block"
  | .connectionRefused => "connection refused"
  | .notFound => "entity not found"
  | .brokenPipe => "broken pipe"
  | .connectionReset => "connection reset"
  | .unexpectedEof => "unexpected end of file"
  | .invalidData => "invalid data"
  | .permissionDenied => "permission denied"
  | .invalidInput => "invalid input parameter"
  | .notADirectory => "not a directory"
  | .networkUnreachable => "network unreachable"
  | .addressNotAvailable => "address not available"
  | .other => "other error"

/-- The kind with the given name. -/
def ofName? (s : String) : Option IoKind :=
  all.find? fun k => k.name = s

end IoKind

/-- A fault of input or output. -/
structure IoFault where
  kind : IoKind
  reason : Option String
  deriving DecidableEq, Repr

namespace IoFault

/-- The wording of a fault. -/
def message (f : IoFault) : String :=
  f.reason.getD f.kind.text

/-- The fault in diagnostics. -/
def debug (f : IoFault) : String :=
  match f.reason with
  | none => "Kind(" ++ f.kind.name ++ ")"
  | some s =>
    "Custom \x7b kind: " ++ f.kind.name ++ ", error: " ++ Text.quote s ++ " \x7d"

/-- Whether the fault says that something took too long. -/
def isTimeout (f : IoFault) : Bool :=
  f.kind = .timedOut || f.kind = .wouldBlock

end IoFault

end StoreSoak
