import StoreSoak.IoFault
import StoreSoak.Store.Basic

/-!
What the client of a remote store can fail with.

* `FailureKind` are the kinds of failures, `Failure` a failure with its description.
* `Failure.toStoreError` tells what a failure means to the harness: what the client took for a
  timeout and what the server refused are failed operations, everything that went wrong on the way
  to the server is a lost connection.
-/

namespace StoreSoak

/-- The kinds of failures of the client. -/
inductive FailureKind where
  | response
  | parse
  | authentication
  | type
  | execAbort
  | busyLoading
  | noScript
  | invalidConfig
  | moved
  | ask
  | tryAgain
  | clusterDown
  | crossSlot
  | masterDown
  | io
  | client
  | ext
  | readOnly
  | masterUnknown
  | replicasUnknown
  | sentinelsEmpty
  | notBusy
  | clusterConnection
  | notSubscribed
  | serialize
  | resp3Unsupported
  deriving DecidableEq, Repr

namespace FailureKind

/-- Every kind. -/
def all : List FailureKind :=
  [.response, .parse, .authentication, .type, .execAbort, .busyLoading, .noScript, .invalidConfig,
    .moved, .ask, .tryAgain, .clusterDown, .crossSlot, .masterDown, .io, .client, .ext, .readOnly,
    .masterUnknown, .replicasUnknown, .sentinelsEmpty, .notBusy, .clusterConnection,
    .notSubscribed, .serialize, .resp3Unsupported]

/-- The name of a kind. -/
def name : FailureKind → String
  | .response => "ResponseError"
  | .parse => "ParseError"
  | .authentication => "AuthenticationFailed"
  | .type => "TypeError"
  | .execAbort => "ExecAbortError"
  | .busyLoading => "BusyLoadingError"
  | .noScript => "NoScriptError"
  | .invalidConfig => "InvalidClientConfig"
  | .moved => "Moved"
  | .ask => "Ask"
  | .tryAgain => "TryAgain"
  | .clusterDown => "ClusterDown"
  | .crossSlot => "CrossSlot"
  | .masterDown => "MasterDown"
  | .io => "IoError"
  | .client => "ClientError"
  | .ext => "ExtensionError"
  | .readOnly => "ReadOnly"
  | .masterUnknown => "MasterNameNotFoundBySentinel"
  | .replicasUnknown => "NoValidReplicasFoundBySentinel"
  | .sentinelsEmpty => "EmptySentinelList"
  | .notBusy => "NotBusy"
  | .clusterConnection => "ClusterConnectionNotFound"
  | .notSubscribed => "NoSub"
  | .serialize => "Serialize"
  | .resp3Unsupported => "RESP3NotSupported"

/-- The kind with the given name. -/
def ofName? (s : String) : Option FailureKind :=
  all.find? fun k => k.name = s

/-- The kind that a code of the server stands for. -/
def ofCode? (code : String) : Option FailureKind :=
  [("ERR", FailureKind.response), ("EXECABORT", .execAbort), ("LOADING", .busyLoading),
    ("NOSCRIPT", .noScript), ("MOVED", .moved), ("ASK", .ask), ("TRYAGAIN", .tryAgain),
    ("CLUSTERDOWN", .clusterDown), ("CROSSSLOT", .crossSlot), ("MASTERDOWN", .masterDown),
    ("READONLY", .readOnly), ("NOTBUSY", .notBusy), ("NOSUB", .notSubscribed)].lookup code

end FailureKind

/-- A failure of the client. -/
inductive Failure where
  /-- Of input or output. -/
  | io (f : IoFault)
  /-- Of a kind, with a description and perhaps a detail. -/
  | described (kind : FailureKind) (description : String) (detail : Option String)
  /-- With a code of the server that stands for no kind. -/
  | coded (code : String) (detail : Option String)
  deriving DecidableEq, Repr

namespace Failure

/-- The wording of a failure. -/
def message : Failure → String
  | .io f => f.message
  | .described kind description none => description ++ "- " ++ kind.name
  | .described kind description (some detail) =>
    description ++ " - " ++ kind.name ++ ": " ++ detail
  | .coded code detail => code ++ ": " ++ detail.getD "Unknown extension error encountered"

/-- What the server says beyond the kind or code of a failure. -/
def detail : Failure → Option String
  | .io _ => none
  | .described _ _ d => d
  | .coded _ d => d

/-- Whether the failure says that something took too long. -/
def isTimeout : Failure → Bool
  | .io f => f.isTimeout
  | _ => false

/-- Whether the failure lies on the way to the server. -/
def isTransport : Failure → Bool
  | .io _ => true
  | .described kind _ _ => kind = .io
  | .coded _ _ => false

/-- What a failure means to the harness. -/
def toStoreError (f : Failure) : StoreError :=
  if f.isTimeout then .operation ("timeout reported by client: " ++ f.message)
  else if f.isTransport then .connection f.message
  else .operation f.message

/-- The same failure while the connection is being opened, where every failed operation is a failed
connection. -/
def toConnectError (f : Failure) : StoreError :=
  match f.toStoreError with
  | .operation reason => .connection reason
  | e => e

/-- The failure that the client makes of an error of the server: its first word is a code, what
follows a blank a detail. -/
def ofServer (text : String) : Failure :=
  let cs := text.toList
  let code := String.ofList (cs.takeWhile (· ≠ ' '))
  let detail := match cs.dropWhile (· ≠ ' ') with
    | [] => none
    | _ :: rest => some (String.ofList rest)
  match FailureKind.ofCode? code with
  | some kind => .described kind "An error was signalled by the server" detail
  | none => .coded code detail

end Failure

end StoreSoak
