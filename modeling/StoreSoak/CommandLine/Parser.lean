import StoreSoak.CommandLine.Arguments

/-!
Reading a command line.

The words are read in order. An option is written `--name value` or `--name=value`, a switch
`--name`. The value of an option that stands as a word of its own is looked at when the next known
name is reached, or the end of the line; a word that begins with a dash is never such a value, a
dash alone is. After two dashes alone nothing can follow. The first fault in this order is the
result.

* `Refusal` are the ways in which a line is not carried out.
* `step` reads one word, `parse` a whole line.
-/

namespace StoreSoak.CommandLine

/-- Why a command line is not carried out. -/
inductive Refusal where
  | unknownArgument
  | invalidValue
  | valueValidation
  | argumentConflict
  | tooManyValues
  /-- The help is asked for. -/
  | displayHelp
  /-- The version is asked for. -/
  | displayVersion
  deriving DecidableEq, Repr

namespace Refusal

/-- The name of a refusal. -/
def name : Refusal → String
  | .unknownArgument => "UnknownArgument"
  | .invalidValue => "InvalidValue"
  | .valueValidation => "ValueValidation"
  | .argumentConflict => "ArgumentConflict"
  | .tooManyValues => "TooManyValues"
  | .displayHelp => "DisplayHelp"
  | .displayVersion => "DisplayVersion"

/-- Whether the line asks for an information instead of a run. -/
def isRequest : Refusal → Bool
  | .displayHelp | .displayVersion => true
  | _ => false

/-- The exit code of the program: what was asked for is no fault. -/
def exitCode (r : Refusal) : Nat :=
  if r.isRequest then 0 else 2

/-- Whether the refusal is written to the error output. -/
def toStderr (r : Refusal) : Bool :=
  !r.isRequest

/-- The refusal that a wrong value leads to. -/
def ofFault : ValueFault → Refusal
  | .notOffered => .invalidValue
  | .notInRange => .valueValidation

end Refusal

/-- The version of the program. -/
def version : String := "kvsoak 0.1.0\n"

/-- How far a line has been read. -/
structure Progress where
  arguments : Arguments
  /-- The options and switches that were given. -/
  given : List Name
  /-- An option whose value has not been looked at yet, with that value once it has been read. -/
  pending : Option (Name × Option String)
  /-- Two dashes alone were read. -/
  closed : Bool
  deriving DecidableEq, Repr

namespace Progress

/-- Nothing read yet. -/
def start : Progress := ⟨{}, [], none, false⟩

/-- Takes the choice of a name with its value; no name can be given twice. -/
def take (p : Progress) (n : Name) (value : String) : Except Refusal Progress :=
  if p.given.contains n then .error .argumentConflict
  else
    match Choice.read n value with
    | .error f => .error (Refusal.ofFault f)
    | .ok c => .ok { p with arguments := p.arguments.choose c, given := n :: p.given }

/-- Looks at the value of the pending option. -/
def resolve (p : Progress) : Except Refusal Progress :=
  match p.pending with
  | none => .ok p
  | some (_, none) => .error .invalidValue
  | some (n, some value) => { p with pending := none }.take n value

/-- Reads a name after two dashes, with the value attached to it if there is one. -/
def long (p : Progress) (name : String) (attached : Option String) : Except Refusal Progress :=
  if name = "help" || name = "version" then
    if attached.isSome then .error .tooManyValues
    else
      match p.resolve with
      | .error r => .error r
      | .ok _ => .error (if name = "help" then .displayHelp else .displayVersion)
  else
    match Name.ofText? name with
    | none => .error .unknownArgument
    | some n =>
      if n.isSwitch && attached.isSome then .error .tooManyValues
      else
        match p.resolve with
        | .error r => .error r
        | .ok p =>
          if n.isSwitch then p.take n ""
          else
            match attached with
            | some value => p.take n value
            | none => .ok { p with pending := some (n, none) }

/-- Reads letters after one dash, of which the first decides. -/
def short (p : Progress) (letter : Char) : Except Refusal Progress :=
  if letter = 'h' || letter = 'V' then
    match p.resolve with
    | .error r => .error r
    | .ok _ => .error (if letter = 'h' then .displayHelp else .displayVersion)
  else .error .unknownArgument

/-- Reads a word that is no option: the value of the pending one, if that has none yet. -/
def plain (p : Progress) (word : String) : Except Refusal Progress :=
  match p.pending with
  | some (n, none) => .ok { p with pending := some (n, some word) }
  | _ => .error .unknownArgument

/-- The name in a word after its two dashes, and the value after the first equals sign. -/
def splitLong (s : List Char) : String × Option String :=
  (String.ofList (s.takeWhile (· ≠ '=')),
    match s.dropWhile (· ≠ '=') with
    | [] => none
    | _ :: value => some (String.ofList value))

/-- Reads one word. -/
def step (p : Progress) (word : String) : Except Refusal Progress :=
  if p.closed then .error .unknownArgument
  else
    match word.toList with
    | ['-', '-'] => .ok { p with closed := true }
    | '-' :: '-' :: rest =>
      let r := splitLong rest
      p.long r.1 r.2
    | '-' :: letter :: _ => p.short letter
    | _ => p.plain word

/-- Reads words in order. -/
def steps (p : Progress) : List String → Except Refusal Progress
  | [] => .ok p
  | w :: rest =>
    match p.step w with
    | .error r => .error r
    | .ok p => steps p rest

end Progress

/-- The arguments that a command line gives, or why it is not carried out. -/
def parse (words : List String) : Except Refusal Arguments :=
  match Progress.start.steps words with
  | .error r => .error r
  | .ok p =>
    match p.resolve with
    | .error r => .error r
    | .ok p => .ok p.arguments

end StoreSoak.CommandLine
