import ChainIndexer.Adapter
import ChainIndexer.Checkpoint
import ChainIndexer.RetryPolicy

/-!
The loop that carries a ledger to a sink. A step takes the cursor from the checkpoint, fetches a
page, processes its jobs and delivers their payloads in order, and only then commits the cursor of
the page. A step that fails commits nothing, so the next one fetches the same page again; after a
transient failure the loop waits and goes on, after any other it ends.
-/

namespace ChainIndexer

/-- A ledger, the file of its cursor, and where its payloads go. -/
structure Indexer (n : Type → Type) where
  adapter : Adapter n
  disk : Disk n
  checkpoint : Checkpoint
  push : Push.Payload → Act n Unit
  /-- The wait after a step that succeeded, in seconds. -/
  interval : Amount := .real 0.1
  retry : RetryPolicy := {}
  sleep : Amount → n Unit
  /-- Whether the loop has been asked to end. -/
  isStopped : n Bool

/-- How far a loop has come: the steps that failed in a row, and all the steps. -/
structure Progress where
  failures : Nat := 0
  steps : Nat := 0
  deriving DecidableEq, Repr

namespace Indexer

variable {n : Type → Type} [Monad n]

/-- Delivers payloads in order. -/
def pushAll (x : Indexer n) : List Push.Payload → Act n Unit
  | [] => return ()
  | p :: rest => do
    x.push p
    x.pushAll rest

/-- Processes jobs in order and delivers the payloads of each before the next; gives the number of
payloads. -/
def deliver (x : Indexer n) : List Job → Act n Nat
  | [] => return 0
  | j :: rest => do
    let payloads := (← x.adapter.process j).getD []
    x.pushAll payloads
    return payloads.length + (← x.deliver rest)

/-- Carries one page over; gives the number of payloads. -/
def step (x : Indexer n) : Act n Nat := do
  let cursor ← x.checkpoint.get x.disk
  let (jobs, next) ← x.adapter.fetch cursor
  let pushed ← x.deliver jobs
  x.checkpoint.update x.disk next
  return pushed

/-- A step, the failures in a row after it and the wait that it asks for. -/
def wake (x : Indexer n) (failures : Nat) : Act n (Nat × Amount) := do
  match ← Act.sure x.step.observe with
  | .ok _ => return (0, x.interval)
  | .error e =>
    if e.kind.isTransient then return (failures + 1, ← x.retry.delay (failures + 1 : Nat))
    else throw e

/-- Whether a number of steps is all that was asked for. -/
def isEnough (limit : Option Int) (steps : Nat) : Bool :=
  match limit with
  | some k => k ≤ steps
  | none => false

/-- A round of the loop: nothing if it has been asked to end, otherwise a step, and a wait unless it
was the last step. Gives the progress with which the loop goes on. -/
def round (x : Indexer n) (limit : Option Int) (p : Progress) : Act n (Option Progress) := do
  if ← Act.sure x.isStopped then return none
  let (failures, wait) ← x.wake p.failures
  let p : Progress := ⟨failures, p.steps + 1⟩
  if isEnough limit p.steps then return none
  Act.sure (x.sleep wait)
  return some p

/-- The rounds of the loop, at most a number of them. -/
def rounds (x : Indexer n) (limit : Option Int) : (count : Nat) → Progress → Act n Unit
  | 0, _ => return ()
  | count + 1, p => do
    match ← x.round limit p with
    | some p => x.rounds limit count p
    | none => return ()

/-- The loop with a number of steps, of which there is at least one. -/
def run (x : Indexer n) (steps : Int) : Act n Unit :=
  x.rounds (some steps) (max 1 steps.toNat) {}

end Indexer

end ChainIndexer
