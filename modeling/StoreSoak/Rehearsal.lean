import StoreSoak.Clock

/-!
Rehearsals: runs at the store inside the process, with latencies and faults by a script.

Every call of a worker takes a time that the script gives by the worker and the number of the call.
On a call that the script names, a value is written first, then the caller breaks down or the call
fails; a call that does neither goes through to the store. Asking for the database, looking for the
sentinel key and closing can fail by the script too.

* `Script.database` and `Script.connection` are the store of a rehearsal.
* `Script.latency` is the time that a call takes.
-/

namespace StoreSoak

/-- What goes wrong on one call of one worker. -/
structure Mishap where
  worker : Nat
  /-- The number of the call among those of the worker, from one on. -/
  call : Nat
  write : Option (String × String)
  crash : Option Payload
  fail : Option StoreError

/-- The script of a rehearsal. -/
structure Script where
  mishaps : List Mishap
  /-- For every worker the times that its calls take, the last of them for all further calls. -/
  latencies : Array (Array Duration)
  databaseError : Option StoreError
  sentinelError : Option StoreError
  closeError : Option StoreError

namespace Script

/-- The script by which nothing goes wrong and no call takes time. -/
def smooth : Script := ⟨[], #[], none, none, none⟩

/-- What goes wrong on a call, in the order of the script. -/
def mishapsOf (s : Script) (c : Caller) : List Mishap :=
  s.mishaps.filter fun m => m.worker = c.worker && m.call = c.iteration

/-- The nanoseconds that a call takes. -/
def latency (s : Script) : Latency := fun c =>
  let times := s.latencies.getD c.worker #[]
  (times.getD (min c.iteration times.size - 1) Duration.zero).waited

/-- A call with what goes wrong on it. -/
def stage {α : Type} (index : Int) (call : Memory → Reply α × Memory) :
    List Mishap → Memory → Reply α × Memory
  | [], m => call m
  | h :: rest, m =>
    let m := match h.write with
      | some (key, value) => (m.set index key value Flags.none).2
      | none => m
    match h.crash, h.fail with
    | some p, _ => (.crashed p, m)
    | none, some e => (.failed e, m)
    | none, none => stage index call rest m

/-- The database of an index in a rehearsal. -/
def database (s : Script) (index : Int) : Database Memory :=
  let plain := Memory.databaseOf index
  { set := fun c key value f => stage index (plain.set c key value f) (s.mishapsOf c)
    execute := fun c t => stage index (plain.execute c t) (s.mishapsOf c)
    keyExists := fun key m =>
      match s.sentinelError with
      | some e => (.error e, m)
      | none => plain.keyExists key m }

/-- The connection of a rehearsal. -/
def connection (s : Script) : Connection Memory where
  database index m :=
    match s.databaseError with
    | some e => .error e
    | none => (m.database index).map fun _ => s.database index
  close m :=
    match s.closeError with
    | some e => (.error e, m)
    | none => m.close

end Script

end StoreSoak
