import StoreSoak.Proofs.Lua.Reader
import StoreSoak.Proofs.Text.Utf8
import StoreSoak.Remote.Client

/-!
What a client relies on in a server that keeps texts under keys and runs scripts.

A server is known by its answers. Of its state only two things matter: what the selected database
holds, and which scripts it keeps under the digests of their texts. A script runs as one command.

* `Server.perform?` is the reply to a command on keys, `Server.evaluate?` that of a script.
* `Network.Lawful`: the servers of a network answer in this way, and always do.
-/

namespace StoreSoak.Remote

namespace Server

/-- A text that may be missing as a reply. -/
def bulk : Option String → Value
  | none => .nil
  | some s => .bulk (Text.utf8 s)

/-- A reply that is a text that may be missing is read as this text. -/
lemma text?_bulk (value : Option String) : (bulk value).text? = .ok value := by
  cases value with
  | none => rfl
  | some s => rw [bulk, Value.text?, Text.ofUtf8_utf8]

lemma error?_bulk (value : Option String) : (bulk value).error? = none := by
  cases value <;> rfl

/-- The reply to a command on keys, and the keyspace after it. Nothing is said of other commands. -/
def perform? (k : Keyspace) : Command → Option (Value × Keyspace)
  | ["SET", key, value] => some (.status "OK", k.insert key value)
  | ["SET", key, value, "GET"] => some (bulk (k.get? key), k.insert key value)
  | ["GET", key] => some (bulk (k.get? key), k)
  | ["EXISTS", key] => some (.int (if k.contains key then 1 else 0), k)
  | _ => none

/-! ### Scripts -/

/-- A value as an argument of a command. -/
def argument? : Lua.Value → Option String
  | .text s => some s
  | _ => none

/-- A reply as a value of a script. -/
def valueOf : Value → Except String Lua.Value
  | .nil => .ok (.truth false)
  | .int i => .ok (.number i)
  | .bulk bytes =>
    match Text.ofUtf8 bytes with
    | .ok s => .ok (.text s)
    | .error f => .error f.message
  | .status s => .ok (.status s)
  | .array _ => .error "nested replies are not read"
  | .error s => .error s

/-- The answer of a script as a reply. -/
def replyOf : Lua.Value → Value
  | .nil => .nil
  | .truth false => .nil
  | .truth true => .int 1
  | .number i => .int i
  | .text s => .bulk (Text.utf8 s)
  | .row items => .array (items.map fun s => .bulk (Text.utf8 s))
  | .status s => .status s

/-- Reads digits as a number. -/
def tonumber : List Lua.Value → Lua.Act Keyspace Lua.Value
  | [.text s] =>
    match Text.digits? s.toList with
    | some n => pure (.number n)
    | none => Lua.Act.fail "only digits are read as a number"
  | _ => Lua.Act.fail "only a text is read as a number"

/-- Gives a command on keys. -/
def command (arguments : List Lua.Value) : Lua.Act Keyspace Lua.Value := fun k =>
  match (arguments.mapM argument?).bind (perform? k) with
  | some (v, k) => (valueOf v, k)
  | none => (.error "nothing is known of this command", k)

/-- What a script may call. -/
def host (f : String) (arguments : List Lua.Value) : Lua.Act Keyspace Lua.Value :=
  if f = "tonumber" then tonumber arguments
  else if f = "redis.call" then command arguments
  else Lua.Act.fail "attempt to call a value that is no function"

/-- What the names of a script stand for when it starts. -/
def globals (keys arguments : List String) : Lua.Env :=
  [("KEYS", .row keys), ("ARGV", .row arguments)]

/-- The reply of a script to keys and arguments, and the keyspace after it. Nothing is said of
scripts that cannot be read or that fail. -/
def evaluate? (script : String) (keys arguments : List String) (k : Keyspace) :
    Option (Value × Keyspace) :=
  match Lua.read script with
  | none => none
  | some program =>
    match Lua.run host program (globals keys arguments) k with
    | (.ok v, k) => some (replyOf v, k)
    | (.error _, _) => none

/-- The command that calls the script for transactions with keys and arguments. -/
def callOf (keys arguments : List String) : Command :=
  ["EVALSHA", Script.digest, toString keys.length] ++ keys ++ arguments

end Server

/-- What is relied on in the servers of a network, where `contents` is what the selected database of
a server holds, and `script?` the script that it keeps under a digest. -/
structure Network.Lawful {σ : Type} (net : Network σ) (contents : σ → Keyspace)
    (script? : σ → String → Option String) : Prop where
  perform : ∀ {c : Command} {s : σ} {v : Value} {k : Keyspace},
    Server.perform? (contents s) c = some (v, k) →
      ∃ s', net.answer c s = (.reply v, s') ∧ contents s' = k ∧ script? s' = script? s
  /-- The script for transactions is kept under its digest. -/
  load : ∀ s, ∃ v s', net.answer Script.load s = (.reply v, s') ∧ v.error? = none ∧
    contents s' = contents s ∧ script? s' Script.digest = some Script.text
  call : ∀ {keys arguments : List String} {s : σ} {v : Value} {k : Keyspace},
    script? s Script.digest = some Script.text →
      Server.evaluate? Script.text keys arguments (contents s) = some (v, k) →
        ∃ s', net.answer (Server.callOf keys arguments) s = (.reply v, s') ∧ contents s' = k ∧
          script? s' = script? s
  /-- Without the script its call is refused. -/
  unknown : ∀ {s : σ} (keys arguments : List String), script? s Script.digest = none →
    ∃ e s', net.answer (Server.callOf keys arguments) s = (.reply (.error e), s') ∧
      (Trouble.failure (Failure.ofServer e)).isNoScript = true ∧ contents s' = contents s ∧
      script? s' = script? s

end StoreSoak.Remote
