import StoreSoak.Run

/-!
What a run leaves behind.

A run that is given an address opens its connection first; an error of the opening is its result,
and nothing else is done. A record holds how the run ended, what it did, printed and noted, all in
the order of time, and its workers with their calls.

* `Opening` is how a connection was opened, `Record.ofOpening` a run from there on.
* `printed` and `reports` are read off the deeds.
-/

namespace StoreSoak

/-- How a connection was opened. -/
structure Opening (σ : Type) where
  address : String
  options : ConnectOptions
  /-- The state of the store, or why there is no connection. -/
  store : Except StoreError σ
  notices : List Notice

namespace Memory

/-- The store inside the process is opened whatever the address. -/
def openAt (address : String) (options : ConnectOptions) : Opening Memory :=
  ⟨address, options, .ok Memory.fresh, [.memoryOpened address]⟩

end Memory

/-- What a run leaves behind, in the order of time. -/
structure Record where
  outcome : Option Outcome
  workers : Array Worker
  /-- The time of its end, in nanoseconds since its beginning. -/
  now : Nat
  notices : List Notice
  deeds : List Deed

namespace Record

/-- The record of a run. -/
def ofRun {σ : Type} (r : Run σ) : Record :=
  { outcome := r.outcome?
    workers := r.pool.workers
    now := r.pool.now
    notices := r.pool.notices.reverse
    deeds := r.trail.reverse }

/-- The record of a run whose connection was opened before; `course` takes the run to its end. -/
def ofOpening {σ : Type} (s : Setting σ) (o : Opening σ) (course : Run σ → Run σ) : Record :=
  let opened := Deed.opened o.address o.options
  match o.store with
  | .error e =>
    { outcome := some (.failed (.store e)), workers := #[], now := 0, notices := o.notices
      deeds := [opened] }
  | .ok store =>
    let r := ofRun (course (Run.begin s store))
    { r with notices := o.notices ++ r.notices, deeds := opened :: r.deeds }

/-- Everything that was printed. -/
def printed (r : Record) : String :=
  String.join <| r.deeds.filterMap fun d => match d with
    | .printed s => some s
    | _ => none

/-- The reports that were put out. -/
def reports (r : Record) : List Report :=
  r.deeds.filterMap fun d => match d with
    | .reported t => some t
    | _ => none

end Record

end StoreSoak
