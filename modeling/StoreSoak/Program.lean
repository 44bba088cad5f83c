import StoreSoak.Clock
import StoreSoak.CommandLine.Parser
import StoreSoak.Remote.Client
import StoreSoak.Report.Document
import StoreSoak.Report.Text
import StoreSoak.Run.Record

/-!
The program behind the command line.

A command line either asks for an information, or is refused, or is carried out as one run, whose
report goes to the output and whose error, if it ends with one, to the error output. Notices are not
put out.

* `Ended` is what is left when the program is over: its exit code and its two outputs. What is put
  out does not depend on what the operator writes, who is waited for last of all.
* `Program.run` reads a line and carries it out in given surroundings.
-/

namespace StoreSoak

/-- What is left when the program is over. -/
structure Ended where
  exitCode : Nat
  output : String
  errors : String
  /-- Whether the operator was waited for. -/
  awaited : Bool
  deriving DecidableEq, Repr

/-- The surroundings in which the program runs. -/
structure Surroundings (σ : Type) where
  processors : Nat
  entropy : Nat → Generator
  network : Remote.Network σ
  /-- What the operator writes. -/
  input : List UInt8

namespace Program

open CommandLine

/-- The exit code of a breakdown. -/
def breakdownCode : Nat := 101

/-- The text of the help. -/
def help : String :=
  "Soak a single multiplexed key-value connection with concurrent workers\n\nUsage: kvsoak [OPTIONS]\n\n" ++
    "Options:\n" ++
    String.join (Name.all.map fun n =>
      "      --" ++ n.text ++ (if n.isSwitch then "" else " <VALUE>") ++ "\n          " ++ n.help ++ "\n") ++
    "  -h, --help\n          Print help\n  -V, --version\n          Print version\n"

/-- What is left when a line is not carried out. -/
def refuse (r : Refusal) : Ended :=
  match r with
  | .displayHelp => ⟨r.exitCode, help, "", false⟩
  | .displayVersion => ⟨r.exitCode, version, "", false⟩
  | _ =>
    ⟨r.exitCode, "", "error: " ++ r.name ++ "\n\nFor more information, try '--help'.\n", false⟩

/-- The way in which reports are put out. -/
def reporter : ReportFormat → Reporter
  | .text => fun r => .ok r.text
  | .document => fun r => .ok r.document

/-- An error with which a run ends, and the errors from which it follows. -/
def errorText (e : RunError) : String :=
  "Error: " ++ e.message ++ "\n" ++
    match e.sources with
    | [] => ""
    | sources => "\nCaused by:\n" ++ String.join (sources.map fun s => "    " ++ s ++ "\n")

/-- What is left when a run is over. -/
def conclude (r : Record) : Ended :=
  let awaited := r.deeds.contains .awaited
  match r.outcome with
  | some (.finished _) => ⟨0, r.printed, "", awaited⟩
  | some (.failed e) => ⟨1, r.printed, errorText e, awaited⟩
  | some (.broken b) => ⟨breakdownCode, r.printed, b.message ++ "\n", awaited⟩
  | none => ⟨breakdownCode, r.printed, "", awaited⟩

/-- What a run is given by a command line. -/
def setting {σ τ : Type} (s : Surroundings σ) (a : Arguments) (c : Connection τ) : Setting τ :=
  { config := a.config
    processors := s.processors
    entropy := s.entropy
    connection := c
    reporter := reporter a.report
    input := s.input }

/-- The run that the arguments ask for, calls taking no time. -/
def soak {σ : Type} (s : Surroundings σ) (a : Arguments) : Record :=
  let options := a.connectOptions
  match a.backend with
  | .memory =>
    let setting := setting s a Memory.connection
    Record.ofOpening setting (Memory.openAt a.address options)
      (Run.complete setting (fun _ => 0) none)
  | .remote =>
    let setting := setting s a (Remote.connection s.network options)
    Record.ofOpening setting (Remote.opening s.network a.address options)
      (Run.complete setting (fun _ => 0) none)

/-- What is wrong with a number of threads, if anything is: there has to be one to run on, and they
need as much room as workers. -/
def threadFault? (threads : Nat) : Option String :=
  if threads = 0 then some "Worker threads cannot be set to 0"
  else (Breakdown.ofWorkers? threads).map Breakdown.message

/-- Carries the arguments out. -/
def carryOut {σ : Type} (s : Surroundings σ) (a : Arguments) : Ended :=
  match a.workerThreads.bind threadFault? with
  | some fault => ⟨breakdownCode, "", fault ++ "\n", false⟩
  | none => conclude (soak s a)

/-- Reads a command line and carries it out. -/
def run {σ : Type} (s : Surroundings σ) (words : List String) : Ended :=
  match parse words with
  | .error r => refuse r
  | .ok a => carryOut s a

end Program

end StoreSoak
