import StoreSoak.Store.Transaction
import StoreSoak.Text.Sha1

/-!
Transactions as a script that the server runs.

The keys of the call are those of the conditions and then those of the writes. The arguments are the
number of conditions, for each of them `1` if its key must exist and `0` if it must not, and then
the values to write. The server keeps a script by the digest of its text, so that a call names the
digest.

* `text` is the script, `digest` the name under which the server keeps it.
* `keys` and `arguments` pack a transaction; `call` is the command.
-/

namespace StoreSoak.Remote.Script

/-- The text of the script. -/
def text : String :=
  "\nlocal n = tonumber(ARGV[1])\n" ++
  "for i = 1, n do\n" ++
  "    local exists = redis.call('EXISTS', KEYS[i]) == 1\n" ++
  "    if (ARGV[i + 1] == '1') ~= exists then\n" ++
  "        return 0\n" ++
  "    end\n" ++
  "end\n" ++
  "for i = n + 1, #KEYS do\n" ++
  "    redis.call('SET', KEYS[i], ARGV[i + 1])\n" ++
  "end\n" ++
  "return 1\n"

/-- The name under which the server keeps the script. -/
def digest : String :=
  Text.Sha1.hexDigest text

/-- How the script is told what a condition demands. -/
def mode : Condition → String
  | .exists _ => "1"
  | .absent _ => "0"

/-- The keys of a transaction: of its conditions, then of its writes. -/
def keys (t : Transaction) : List String :=
  t.conditions.map Condition.key ++ t.writes.map Write.key

/-- The arguments of a transaction: the number of conditions, their modes, the values. -/
def arguments (t : Transaction) : List String :=
  toString t.conditions.length :: (t.conditions.map mode ++ t.writes.map Write.value)

/-- The command that runs the script for a transaction. -/
def call (t : Transaction) : List String :=
  ["EVALSHA", digest, toString (keys t).length] ++ keys t ++ arguments t

/-- The command by which the server keeps the script. -/
def load : List String := ["SCRIPT", "LOAD", text]

end StoreSoak.Remote.Script
