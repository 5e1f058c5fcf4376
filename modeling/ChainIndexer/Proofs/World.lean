import ChainIndexer.Indexer
import ChainIndexer.Proofs.Activity
import ChainIndexer.Solana.Client

/-!
A world around the loop that may do anything. A `Scenario` says, for every moment, what the node
answers, what the sink does with a payload, whether the processing of a job breaks off and whether
an operation on a file breaks down; as it is asked by the time, it may answer the same request
differently each time. The world keeps the files and an account of what has happened.
-/

namespace ChainIndexer

/-- What is seen of a step from outside. -/
inductive Incident where
  /-- The node was asked, and answered or failed. -/
  | asked (method : String) (params : List Value) (answer : Except Failure Value)
  /-- A page of signatures was taken. -/
  | paged (entries : List Solana.Entry)
  /-- A job was processed into payloads. -/
  | handled (job : Job) (payloads : List Push.Payload)
  /-- The sink has accepted a payload. -/
  | accepted (p : Push.Payload)
  /-- The file of the cursor was given a new content. -/
  | stored (content : Bytes)

/-- A world: how many operations have been made in it, its files, and what has happened. -/
structure World where
  clock : Nat := 0
  files : Files := {}
  events : List Incident := []

namespace World

/-- The world after one more operation. -/
def after (w : World) (es : List Incident) : World :=
  { w with clock := w.clock + 1, events := w.events ++ es }

/-- The world at the beginning of a step, of which nothing has happened yet. -/
def begun (w : World) : World :=
  { w with events := [] }

/-- Where the files of a world are. -/
def place : Files.Place World := ⟨World.files, fun fs w => { w with files := fs }⟩

@[simp] theorem clock_begun (w : World) : w.begun.clock = w.clock := rfl

@[simp] theorem files_begun (w : World) : w.begun.files = w.files := rfl

@[simp] theorem events_begun (w : World) : w.begun.events = [] := rfl

@[simp] theorem clock_after (w : World) (es : List Incident) : (w.after es).clock = w.clock + 1 := rfl

@[simp] theorem files_after (w : World) (es : List Incident) : (w.after es).files = w.files := rfl

@[simp] theorem events_after (w : World) (es : List Incident) :
    (w.after es).events = w.events ++ es := rfl

end World

/-- What a sink does with a payload, which may be accepted although the delivery fails. -/
inductive Reception where
  | accepted
  | lost (e : Failure)
  | refused (e : Failure)

/-- An operation on a file that breaks down, for an append after some of the bytes. -/
structure Breakdown where
  fault : Fault
  written : Nat

/-- What a world does, by the time. -/
structure Scenario where
  node : Nat → String → List Value → Except Failure Value
  sink : Nat → Push.Payload → Reception
  /-- The failure with which the processing of a job ends after its last request. -/
  interrupt : Nat → Option Failure
  breakdown : Nat → Option Breakdown

namespace Scenario

/-- The node. -/
def rpc (sc : Scenario) : Rpc (StateM World) := fun method params =>
  ExceptT.mk fun w =>
    let answer := sc.node w.clock method params
    (answer, w.after [.asked method params answer])

/-- The sink. -/
def push (sc : Scenario) (p : Push.Payload) : Act (StateM World) Unit :=
  ExceptT.mk fun w =>
    match sc.sink w.clock p with
    | .accepted => (.ok (), w.after [.accepted p])
    | .lost e => (.error e, w.after [.accepted p])
    | .refused e => (.error e, w.after [])

/-- The end of the processing of a job. -/
def finish (sc : Scenario) (j : Job) (payloads : List Push.Payload) : Act (StateM World) Unit :=
  ExceptT.mk fun w =>
    match sc.interrupt w.clock with
    | some e => (.error e, w.after [])
    | none => (.ok (), w.after [.handled j payloads])

/-- An operation on the files. If it breaks down, the files are left as `torn` has them. -/
def operate {α : Type} (sc : Scenario) (name : String) (x : Act (StateM World) α)
    (torn : Nat → Files → Files := fun _ fs => fs) : Act (StateM World) α :=
  ExceptT.mk fun w =>
    match sc.breakdown w.clock with
    | some b =>
      (.error (.file b.fault name), { w.after [] with files := torn b.written w.files })
    | none => x (w.after [])

/-- The files after a part of some bytes has been written at the end of one of them. -/
def tornAppend (name : String) (more : Bytes) (written : Nat) (fs : Files) : Files :=
  match fs.append name (more.take written) with
  | .ok fs' => fs'
  | .error _ => fs

/-- Puts something on the account. -/
def tell (e : Incident) : Act (StateM World) Unit :=
  ExceptT.mk fun w => (.ok (), { w with events := w.events ++ [e] })

/-- Tells that a file has got a new content. -/
def tellStored (name : String) : Act (StateM World) Unit :=
  ExceptT.mk fun w =>
    match w.files.read name with
    | .ok content => (.ok (), { w with events := w.events ++ [.stored content] })
    | .error _ => (.ok (), w)

/-- The files. -/
def disk (sc : Scenario) : Disk (StateM World) :=
  let d := World.place.disk
  { isThere := d.isThere
    read := fun name => sc.operate name (d.read name)
    create := fun name => sc.operate name (d.create name)
    append := fun name more => sc.operate name (d.append name more) (tornAppend name more)
    replace := fun source target => sc.operate source do
      d.replace source target
      tellStored target
    makeDirectory := fun name => sc.operate name (d.makeDirectory name) }

@[simp] theorem disk_isThere (sc : Scenario) (name : String) :
    sc.disk.isThere name = World.place.disk.isThere name := rfl

@[simp] theorem disk_read (sc : Scenario) (name : String) :
    sc.disk.read name = sc.operate name (World.place.disk.read name) := rfl

@[simp] theorem disk_create (sc : Scenario) (name : String) :
    sc.disk.create name = sc.operate name (World.place.change name (·.write name [])) := rfl

@[simp] theorem disk_append (sc : Scenario) (name : String) (more : Bytes) :
    sc.disk.append name more =
      sc.operate name (World.place.change name (·.append name more)) (tornAppend name more) := rfl

@[simp] theorem disk_replace (sc : Scenario) (source target : String) :
    sc.disk.replace source target = sc.operate source (do
      World.place.change source (·.replace source target)
      tellStored target) := rfl

variable {μ : Type}

/-- A ledger whose processing of jobs is watched and may break off. -/
def watched (sc : Scenario) (a : Adapter (StateT μ (StateM World))) :
    Adapter (StateT μ (StateM World)) where
  fetch := a.fetch
  process j := do
    let payloads? ← a.process j
    Act.within (sc.finish j (payloads?.getD []))
    return payloads?

/-- The loop in a world. -/
def indexer (sc : Scenario) (c : Checkpoint) (a : Adapter (StateT μ (StateM World))) :
    Indexer (StateT μ (StateM World)) where
  adapter := sc.watched a
  disk := sc.disk.within
  checkpoint := c
  push p := Act.within (sc.push p)
  sleep _ := return ()
  isStopped := return false

end Scenario

end ChainIndexer
