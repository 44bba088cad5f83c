import StoreSoak.Proofs.Remote.Script

/-!
A server that can be relied on.

It answers the commands that a client of a store sends, and refuses all others.

* `Server.answer` is the reply to a command, and `Server.network` a network with such a server.
* `Server.lawful`: it answers as a client relies on.
-/

namespace StoreSoak.Remote

/-- A server: the database that is selected, and the scripts by their digests. -/
structure Server where
  keyspace : Keyspace
  scripts : Table String String

namespace Server

/-- The number of keys that a call of a script names, if there are so many. -/
def keyCount? (count : String) (rest : List String) : Except String ℕ :=
  match Text.digits? count.toList with
  | none => .error "ERR value is not an integer or out of range"
  | some n =>
    if rest.length < n then .error "ERR Number of keys is greater than number of args" else .ok n

/-- The error for a script that the server was not given. -/
def noScript : String := "NOSCRIPT No matching script. Please use EVAL."

/-- The reply to a command, and the server after it. -/
def answer (s : Server) : Command → Value × Server
  | ["SCRIPT", "LOAD", script] =>
    match Lua.read script with
    | none => (.error "ERR Error compiling script", s)
    | some _ =>
      (bulk (some (Text.Sha1.hexDigest script)),
        { s with scripts := s.scripts.insert (Text.Sha1.hexDigest script) script })
  | "EVALSHA" :: digest :: count :: rest =>
    match keyCount? count rest with
    | .error e => (.error e, s)
    | .ok n =>
      match s.scripts.get? digest with
      | none => (.error noScript, s)
      | some script =>
        match evaluate? script (rest.take n) (rest.drop n) s.keyspace with
        | none => (.error "ERR Error running script", s)
        | some (v, k) => (v, { s with keyspace := k })
  | c =>
    match perform? s.keyspace c with
    | none => (.error "ERR unknown command", s)
    | some (v, k) => (v, { s with keyspace := k })

/-- A network where such a server is at the other end of every pipe. -/
def network (dial : Place → Except IoFault Server) : Network Server where
  dial := dial
  answer c s := (.reply (s.answer c).1, (s.answer c).2)

variable {s : Server}

/-- The call of a script names the number of its keys. -/
lemma keyCount?_append (keys arguments : List String) :
    keyCount? (toString keys.length) (keys ++ arguments) = .ok keys.length := by
  rw [keyCount?, Text.toList_toString, Text.digits?_decimal]
  dsimp only
  rw [if_neg (by rw [List.length_append]; omega)]

/-- The call of a script takes its keys and arguments apart. -/
lemma answer_callOf (keys arguments : List String) :
    s.answer (callOf keys arguments) =
      match s.scripts.get? Script.digest with
      | none => (.error noScript, s)
      | some script =>
        match evaluate? script keys arguments s.keyspace with
        | none => (.error "ERR Error running script", s)
        | some (v, k) => (v, { s with keyspace := k }) := by
  show s.answer ("EVALSHA" :: Script.digest :: toString keys.length :: (keys ++ arguments)) = _
  rw [answer, keyCount?_append]
  dsimp only
  rw [List.take_left, List.drop_left]

/-- A script that the server keeps answers its call. -/
lemma answer_callOf_of_script {script : String} {keys arguments : List String} {v : Value}
    {k : Keyspace} (hscript : s.scripts.get? Script.digest = some script)
    (h : evaluate? script keys arguments s.keyspace = some (v, k)) :
    s.answer (callOf keys arguments) = (v, { s with keyspace := k }) := by
  rw [answer_callOf, hscript]
  dsimp only
  rw [h]

/-- The server is given the script for transactions. -/
lemma answer_load :
    s.answer Script.load = (bulk (some Script.digest),
      { s with scripts := s.scripts.insert Script.digest Script.text }) := by
  have hdigest : Text.Sha1.hexDigest Script.text = Script.digest := rfl
  rw [Script.load, answer, Script.read_text, hdigest]

/-- A command on keys is answered as such. -/
lemma answer_of_perform {c : Command} {v : Value} {k : Keyspace}
    (h : perform? s.keyspace c = some (v, k)) : s.answer c = (v, { s with keyspace := k }) := by
  have hsame : s.answer c = (match perform? s.keyspace c with
      | none => (.error "ERR unknown command", s)
      | some (v, k) => (v, { s with keyspace := k })) := by
    unfold perform? at h
    split at h
    · rfl
    · rfl
    · rfl
    · rfl
    · cases h
  rw [hsame, h]

/-- The refusal of a script that the server was not given is understood as that. -/
lemma isNoScript_noScript : (Trouble.failure (Failure.ofServer noScript)).isNoScript = true := by
  decide +kernel

/-- **There are servers that can be relied on.** -/
theorem lawful (dial : Place → Except IoFault Server) :
    (network dial).Lawful Server.keyspace fun s => s.scripts.get? := by
  have hanswer {c : Command} {s s' : Server} {v : Value} (h : s.answer c = (v, s')) :
      (network dial).answer c s = (.reply v, s') := by
    show (Response.reply (s.answer c).1, (s.answer c).2) = _
    rw [h]
  -- plain commands, loading the script, calling a known one, and an unknown one
  refine ⟨?_, ?_, ?_, ?_⟩
  · intro c s v k h
    exact ⟨_, hanswer (answer_of_perform h), rfl, rfl⟩
  · intro s
    refine ⟨_, _, hanswer answer_load, error?_bulk _, rfl, ?_⟩
    rw [Table.get?_insert, if_pos rfl]
  · intro keys arguments s v k hscript h
    exact ⟨_, hanswer (answer_callOf_of_script hscript h), rfl, rfl⟩
  · intro s keys arguments hscript
    have hcall : s.answer (callOf keys arguments) = (.error noScript, s) := by
      rw [answer_callOf, hscript]
    exact ⟨noScript, s, hanswer hcall, isNoScript_noScript, rfl, rfl⟩

end Server

end StoreSoak.Remote
