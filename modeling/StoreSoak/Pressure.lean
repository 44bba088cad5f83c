import StoreSoak.Notice

/-!
Chains that keep the scheduler busy.

A chain is a row of short tasks, its links; every link submits the next one when it is through. A
link yields once, counts itself, and then looks at the shutdown signal: if it is raised the chain
ends with this link, else the next link takes its place. The chains are over when no link is left.

* `step` takes one link further, `total` is the number of links that were counted.
* `rounds` takes all links further in turn, as one thread would.
-/

namespace StoreSoak

/-- How far a link has come. -/
inductive LinkStage where
  | queued
  | yielded
  | counted
  deriving DecidableEq, Repr

/-- A link of a chain. -/
structure Link where
  chain : Nat
  stage : LinkStage
  deriving DecidableEq, Repr

/-- The links that live, and how many links of each chain were counted. -/
structure Pressure where
  counters : Array Nat
  links : Array Link
  deriving DecidableEq, Repr

namespace Pressure

/-- So many chains, the first link of each in the queue. -/
def start (chains : Nat) : Pressure :=
  ⟨Array.replicate chains 0, (Array.range chains).map fun c => ⟨c, .queued⟩⟩

/-- The number of chains. -/
def chains (p : Pressure) : Nat :=
  p.counters.size

/-- Takes the link at a place further; what follows a counted link depends on the shutdown
signal. -/
def step (p : Pressure) (shutdown : Bool) (i : Nat) : Pressure × List Notice :=
  match p.links[i]? with
  | none => (p, [])
  | some l =>
    match l.stage with
    | .queued => ({ p with links := p.links.setIfInBounds i ⟨l.chain, .yielded⟩ }, [])
    | .yielded =>
      ({ counters := p.counters.modify l.chain (· + 1)
         links := p.links.setIfInBounds i ⟨l.chain, .counted⟩ }, [])
    | .counted =>
      if shutdown then ({ p with links := p.links.eraseIdxIfInBounds i }, [.chainStopping l.chain])
      else ({ p with links := p.links.setIfInBounds i ⟨l.chain, .queued⟩ }, [])

/-- Whether no link is left. -/
def isOver (p : Pressure) : Bool :=
  p.links.isEmpty

/-- The number of links that were counted. -/
def total (p : Pressure) : Nat :=
  p.counters.foldl (· + ·) 0

/-- Takes every link as far as it goes without waiting for the others: a queued link yields, a
yielded one counts itself and looks at the signal. The links are gone through from the last one. -/
def sweep (p : Pressure) (shutdown : Bool) : Nat → Pressure
  | 0 => p
  | i + 1 =>
    match p.links[i]? with
    | some ⟨_, .yielded⟩ => sweep ((p.step shutdown i).1.step shutdown i).1 shutdown i
    | _ => sweep (p.step shutdown i).1 shutdown i

/-- So many rounds through all links. -/
def rounds (p : Pressure) (shutdown : Bool) : Nat → Pressure
  | 0 => p
  | n + 1 => rounds (p.sweep shutdown p.links.size) shutdown n

end Pressure

end StoreSoak
