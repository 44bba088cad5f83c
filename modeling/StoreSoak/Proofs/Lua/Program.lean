import Mathlib.Data.Int.Notation
import Mathlib.Tactic.Common

/-!
Small programs in the language of a server's scripts.

Of Lua there are local names, numeric loops, tests, calls and an answer; values are truth values,
whole numbers, texts, and rows of texts, whose places are counted from one. A program may call the
one that runs it, who has a state of its own.

* `Act` is an action on that state, which may fail and leaves a state behind in any case.
* `eval` is the value of an expression, `block` goes through statements, and `run` gives the value
  that a program answers with.
-/

namespace StoreSoak.Lua

/-- An expression. -/
inductive Expr where
  | number (n : ℕ)
  | text (s : String)
  | name (x : String)
  | item (row place : Expr)
  | length (row : Expr)
  | plus (a b : Expr)
  | equal (a b : Expr)
  | unequal (a b : Expr)
  | call (f : String) (arguments : List Expr)

/-- A statement. -/
inductive Statement where
  /-- Introduces a local name. -/
  | define (x : String) (e : Expr)
  /-- Goes through a body if a condition holds. -/
  | test (condition : Expr) (body : List Statement)
  /-- Goes through a body for every number from the first to the last one. -/
  | count (x : String) (first last : Expr) (body : List Statement)
  | perform (e : Expr)
  | answer (e : Expr)

/-- A value. -/
inductive Value where
  | nil
  | truth (b : Bool)
  | number (i : ℤ)
  | text (s : String)
  | row (items : List String)
  /-- A reply that only says how a command went. -/
  | status (s : String)
  deriving DecidableEq

/-- What names stand for, the innermost first. -/
abbrev Env := List (String × Value)

/-! ### Actions -/

/-- An action on a state: what comes of it, or what went wrong, and the state after it. -/
abbrev Act (σ α : Type) : Type := σ → Except String α × σ

namespace Act

variable {σ α β : Type}

instance : Monad (Act σ) where
  pure a := fun s => (.ok a, s)
  bind a f := fun s =>
    match a s with
    | (.ok x, s) => f x s
    | (.error e, s) => (.error e, s)

/-- The action that fails. -/
def fail (e : String) : Act σ α := fun s => (.error e, s)

@[simp] lemma pure_apply (a : α) (s : σ) : (pure a : Act σ α) s = (.ok a, s) := rfl

@[simp] lemma bind_apply (a : Act σ α) (f : α → Act σ β) (s : σ) :
    (a >>= f) s = match a s with
      | (.ok x, s) => f x s
      | (.error e, s) => (.error e, s) := rfl

@[simp] lemma pure_bind (a : α) (f : α → Act σ β) : (pure a >>= f : Act σ β) = f a := rfl

/-- What goes on after an action that went well. -/
lemma bind_of_ok {a : Act σ α} {f : α → Act σ β} {s s' : σ} {x : α} (h : a s = (.ok x, s')) :
    (a >>= f) s = f x s' := by
  rw [bind_apply, h]

end Act

/-! ### Values -/

namespace Value

/-- Whether a value counts as true. -/
def isTrue : Value → Bool
  | .nil => false
  | .truth b => b
  | _ => true

variable {σ : Type}

/-- The item of a row at a place, the first place being one; elsewhere there is nothing. -/
def item : Value → Value → Act σ Value
  | .row items, .number i =>
    pure (if 1 ≤ i then (items[(i - 1).toNat]?.map Value.text).getD .nil else .nil)
  | _, _ => Act.fail "attempt to index a value that is no table"

/-- The number of items of a row. -/
def length : Value → Act σ Value
  | .row items => pure (.number items.length)
  | _ => Act.fail "attempt to get the length of a value that is no table"

/-- The sum of two numbers. -/
def plus : Value → Value → Act σ Value
  | .number a, .number b => pure (.number (a + b))
  | _, _ => Act.fail "attempt to perform arithmetic on a value that is no number"

/-- A value as a bound of a loop. -/
def bound : Value → Act σ ℤ
  | .number i => pure i
  | _ => Act.fail "'for' bounds must be numbers"

/-- Whether two values are the same. Rows are only the same as themselves, which is not looked
at. -/
def same : Value → Value → Act σ Bool
  | .row _, .row _ => Act.fail "tables are not compared"
  | .status _, .status _ => Act.fail "tables are not compared"
  | a, b => pure (decide (a = b))

end Value

/-! ### Evaluation -/

section Evaluation

variable {σ : Type} (host : String → List Value → Act σ Value)

mutual

/-- The value of an expression, where the host answers calls. -/
def eval (env : Env) : Expr → Act σ Value
  | .number n => pure (.number n)
  | .text s => pure (.text s)
  | .name x =>
    match env.lookup x with
    | some v => pure v
    | none => Act.fail ("nonexistent global variable '" ++ x ++ "'")
  | .item row place => do
    let r ← eval env row
    let i ← eval env place
    r.item i
  | .length row => do
    let r ← eval env row
    r.length
  | .plus a b => do
    let x ← eval env a
    let y ← eval env b
    x.plus y
  | .equal a b => do
    let x ← eval env a
    let y ← eval env b
    let same ← x.same y
    pure (.truth same)
  | .unequal a b => do
    let x ← eval env a
    let y ← eval env b
    let same ← x.same y
    pure (.truth !same)
  | .call f arguments => do
    let values ← evalAll env arguments
    host f values

/-- The values of expressions in a row. -/
def evalAll (env : Env) : List Expr → Act σ (List Value)
  | [] => pure []
  | e :: rest => do
    let v ← eval env e
    let values ← evalAll env rest
    pure (v :: values)

end

/-- How a block ends. -/
inductive Flow where
  | onward
  | answered (v : Value)

/-- Goes through so many numbers in order from a first one on, until there is an answer. -/
def through (body : ℤ → Act σ Flow) : ℕ → ℤ → Act σ Flow
  | 0, _ => pure .onward
  | n + 1, i => do
    match ← body i with
    | .onward => through body n (i + 1)
    | .answered v => pure (.answered v)

mutual

/-- Goes through a statement: the names after it, and whether there is an answer. -/
def step : Statement → Env → Act σ (Env × Flow)
  | .define x e, env => do
    let v ← eval host env e
    pure ((x, v) :: env, .onward)
  | .test condition body, env => do
    let v ← eval host env condition
    let flow ← if v.isTrue then block body env else pure .onward
    pure (env, flow)
  | .count x first last body, env => do
    let a ← eval host env first
    let b ← eval host env last
    let low ← a.bound
    let high ← b.bound
    let flow ← through (fun i => block body ((x, .number i) :: env)) (high + 1 - low).toNat low
    pure (env, flow)
  | .perform e, env => do
    let _ ← eval host env e
    pure (env, .onward)
  | .answer e, env => do
    let v ← eval host env e
    pure (env, .answered v)

/-- Goes through statements, until there is an answer. A local name stands until the block ends. -/
def block : List Statement → Env → Act σ Flow
  | [], _ => pure .onward
  | s :: rest, env => do
    let r ← step s env
    match r.2 with
    | .onward => block rest r.1
    | .answered v => pure (.answered v)

end

/-- The value that a program answers with, which is nothing where it does not answer. -/
def run (program : List Statement) (env : Env) : Act σ Value := do
  match ← block host program env with
  | .onward => pure .nil
  | .answered v => pure v

end Evaluation

end StoreSoak.Lua
