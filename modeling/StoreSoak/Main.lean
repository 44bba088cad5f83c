import StoreSoak.Program
import StoreSoak.Remote.Scripted

/-!
The command line of the harness: reads the arguments, runs the program, writes its outputs, and
waits for the operator where the program does. No remote store is within reach, so that only the
store inside the process can be soaked from here.
-/

namespace StoreSoak.Main

/-- The bytes of the standard input up to the end of its first line. -/
partial def readLine (input : IO.FS.Stream) (line : List UInt8) : IO (List UInt8) := do
  match (← input.read 1).toList with
  | [] => return line.reverse
  | b :: _ => if b = 10 then return (b :: line).reverse else readLine input (b :: line)

/-- The surroundings of the program on this machine. -/
def surroundings (seed : Nat) (input : List UInt8) : Surroundings Remote.Scripted :=
  { processors := 1
    entropy := fun index => Generator.ofWorker (UInt64.ofNat seed) index
    network := Remote.Scripted.network none ⟨[], .silence, true⟩
    input }

end StoreSoak.Main

open StoreSoak in
/-- Runs the program on the command line. What it puts out is written before the operator is waited
for. -/
def main (words : List String) : IO UInt32 := do
  let seed ← IO.rand 0 18446744073709551615
  let ended := Program.run (Main.surroundings seed []) words
  let output ← IO.getStdout
  output.putStr ended.output
  output.flush
  let ended ← if ended.awaited then do
      let line ← Main.readLine (← IO.getStdin) []
      pure (Program.run (Main.surroundings seed line) words)
    else pure ended
  (← IO.getStderr).putStr ended.errors
  return UInt32.ofNat ended.exitCode
