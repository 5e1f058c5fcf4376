import ChainIndexer.Adapter
import ChainIndexer.Bytes.Base64
import ChainIndexer.Cursor.Stored
import ChainIndexer.Network
import ChainIndexer.Options
import ChainIndexer.Solana.Instruction
import ChainIndexer.Solana.Program

/-!
Indexing the transactions of the program. The node lists signatures from the newest to the oldest,
so all signatures after the cursor are collected first and then handed out page by page, the oldest
first; what has not been handed out is the backlog. A transaction yields a payload for each
instruction of the program that carries a record, which is read from the account of the record.
-/

namespace ChainIndexer.Solana

open Push

/-- A signature as the node lists it, with its slot and the error of its transaction. -/
structure Entry where
  signature : Value
  slot : Value
  err : Value

/-- The signatures that have not been handed out, the oldest first, and the one that they follow. -/
structure Backlog where
  entries : List Entry := []
  after : Value := .null

namespace Backlog

/-- Whether a backlog follows a signature, or nothing at all. -/
def follows (b : Backlog) : Option String → Bool
  | some s => b.after.isText s
  | none => b.after.isNull

end Backlog

/-- How many signatures the node lists at once. -/
def batchSize : Nat := 1000

structure Client where
  network : Network
  program : String
  pageSize : Int
  /-- How many batches of signatures are asked for at most before the walk is left for later. -/
  patience : Nat := 2 ^ 64
  deriving DecidableEq, Repr

namespace Client

/-- A client from its options, if the address of the program is one. -/
def ofOptions (o : Options) : Except Failure Client := do
  let program ← programAddress (.text o.contractAddress)
  return { network := o.network, program, pageSize := o.pageSize }

variable {n : Type → Type} [Monad n]

/-- What is asked for in every call: that a block be confirmed. -/
def commitment : String × Value := ("commitment", .text "confirmed")

/-- A batch of signatures, newest first, which are newer than one and older than another. -/
def fetchSignatures (c : Client) (rpc : Rpc n) (newer : Option String) (older : Value) :
    Act n (List Value) := do
  let newerField := match newer with
    | some s => if s.isEmpty then [] else [("until", .text s)]
    | none => []
  let olderField := if older.truthy then [("before", older)] else []
  let answer ← rpc "getSignaturesForAddress"
    [.text c.program,
      .object ([("limit", .int batchSize), commitment] ++ newerField ++ olderField)]
  match answer with
  | .list batch => return batch
  | _ => throw (.notAList "getSignaturesForAddress")

def fetchTransaction (rpc : Rpc n) (signature : Value) : Act n Value := do
  let answer ← rpc "getTransaction"
    [signature,
      .object [("encoding", .text "json"), commitment, ("maxSupportedTransactionVersion", .int 0)]]
  if answer.isNull then throw (.transactionNotReady signature)
  return answer

def accountBytes (account : Value) : Except Fault Bytes := do
  let data ← account.item "data"
  match ← data.index 0 with
  | .text s => Base64.read s
  | _ => throw .wrongType

/-- The data of an account of the program. -/
def fetchAccount (c : Client) (rpc : Rpc n) (key : Value) : Act n Bytes := do
  let answer ← rpc "getAccountInfo"
    [key, .object [("encoding", .text "base64"), commitment]]
  let account ← (answer.orElse (.object [])).get "value"
  if account.isNull then throw (.accountMissing key)
  let owner ← account.get "owner"
  if !owner.isText c.program then throw (.accountForeign key c.program)
  match accountBytes account with
  | .ok bs => return bs
  | .error _ => throw (.accountNoData key)

/-- An entry out of what the node lists. -/
def entryOf (v : Value) : Except Fault Entry := do
  let signature ← v.item "signature"
  let slot ← v.get "slot"
  let err ← v.get "err"
  return ⟨signature, slot, err⟩

/-- The entries newer than a signature, oldest first, from the ones older than another on; the newer
ones are in `found`. -/
def walkFrom (c : Client) (rpc : Rpc n) (newer : Option String) :
    (patience : Nat) → (older : Value) → (found : List Entry) → Act n (List Entry)
  | 0, _, _ => throw .walkUnfinished
  | patience + 1, older, found => do
    let batch ← c.fetchSignatures rpc newer older
    let entries ← (batch.mapM entryOf : Except Fault (List Entry))
    let found := found ++ entries
    if batch.length < batchSize then return found.reverse
    match entries.getLast? with
    | some last => walkFrom c rpc newer patience last.signature found
    | none => return found.reverse

/-- All entries newer than a signature, oldest first. -/
def walk (c : Client) (rpc : Rpc n) (newer : Option String) : Act n (List Entry) :=
  c.walkFrom rpc newer c.patience .null []

def wrongCursor (c : Candidate) : Failure :=
  .wrongCursor "Solana" "transaction" c

/-- The signature that a cursor stands for. -/
def signatureOf : Cursor → Except Failure (Option String)
  | .start => .ok none
  | .transaction s _ => .ok (some s)
  | c => .error (wrongCursor c)

/-- The entries that follow a signature: those of the backlog if it follows it, all of them anew
otherwise. -/
def pending (c : Client) (rpc : Rpc n) (newer : Option String) :
    Act (StateT Backlog n) (List Entry) := do
  let backlog ← Act.memory
  if !backlog.entries.isEmpty && backlog.follows newer then return backlog.entries
  let entries ← Act.within (c.walk rpc newer)
  Act.remember ⟨entries, Value.ofText? newer⟩
  return entries

/-- The transactions that are to be carried over: those that did not fail. -/
def jobsOf (page : List Entry) : List TransactionJob :=
  (page.filter (·.err.isNull)).map fun e => ⟨e.signature, e.slot⟩

/-- Takes the page of entries after a cursor off what is pending, together with the cursor that
resumes behind it. -/
def takePage (c : Client) (rpc : Rpc n) (cursor : Cursor) :
    Act (StateT Backlog n) (List Entry × Cursor) := do
  let newer ← signatureOf cursor
  let entries ← c.pending rpc newer
  let page := entries.take c.pageSize.toNat
  match page.getLast? with
  | none => return ([], cursor)
  | some last =>
    Act.remember ⟨entries.drop page.length, last.signature⟩
    let next ← Cursor.ofSignatureValue last.signature
    return (page, next)

/-- The page of transactions after a cursor. Failed transactions count as part of the page and are
no jobs. -/
def fetchPage (c : Client) (rpc : Rpc n) (cursor : Cursor) :
    Act (StateT Backlog n) (List TransactionJob × Cursor) := do
  let (page, next) ← c.takePage rpc cursor
  return (jobsOf page, next)

/-- What an instruction of a transaction refers to: the keys of the transaction, in the order in
which they are numbered, and its instructions. -/
structure Message where
  keys : List Value
  instructions : Value

/-- The message of a transaction. Keys that were loaded from tables follow the keys of the message.
-/
def messageOf (tx details : Value) : Except Fault Message := do
  let message ← (← tx.item "transaction").item "message"
  let loaded := (← details.get "loadedAddresses").orElse (.object [])
  let keys ← (← message.item "accountKeys").elements
  let writable ← (← loaded.getD "writable" (.list [])).elements
  let readonly ← (← loaded.getD "readonly" (.list [])).elements
  let instructions ← message.item "instructions"
  return ⟨keys ++ writable ++ readonly, instructions⟩

/-- The failures that say of a transaction that it has no message. -/
def isNoMessage (k : Kind) : Bool :=
  k == .fault .missingKey || k == .fault .wrongType

/-- The failures that say of an instruction that it cannot be decoded. -/
def isUndecoded (k : Kind) : Bool :=
  k.isBadValue || k == .fault .missingKey || k == .fault .badIndex || k == .fault .wrongType
    || k == .badType

def instructionBytes (ix : Value) : Except Fault Bytes := do
  match (← ix.get "data").orElse (.text "") with
  | .text s => Base58.read s
  | _ => throw .noMember

/-- The event of an instruction and the accounts of the instruction, none if it is not one of the
program's. -/
def eventOf? (ix : Value) (keys : List Value) :
    Except Failure (Option (EventName × List Value)) := do
  let bs ← instructionBytes ix
  if bs.length < 8 then throw (.instructionShort bs.length)
  match eventOfMark? (bs.take 8) with
  | none => return none
  | some e =>
    let numbers ← (← ix.getD "accounts" (.list [])).elements
    let accounts ← (numbers.mapM (Value.elementOf keys) : Except Fault (List Value))
    return some (e, accounts)

/-- Whether an instruction is one of the program. -/
def isOwn (c : Client) (ix : Value) (keys : List Value) : Except Fault Bool := do
  let program ← Value.elementOf keys (← ix.item "programIdIndex")
  return program.isText c.program

/-- The record of an event of a family, from its account. -/
def recordOf (c : Client) (rpc : Rpc n) (e : EventName) (f : Family) (accounts : List Value) :
    Act n Data := do
  let place := (recordPlace? e).getD accounts.length
  match accounts[place]? with
  | none => throw (.recordAccountMissing (instructionName e) accounts.length place)
  | some key =>
    let data ← c.fetchAccount rpc key
    recordOfAccount f data

/-- The payload of an instruction, none if it carries no record of the program. -/
def payloadOf? (c : Client) (rpc : Rpc n) (j : TransactionJob) (keys : List Value)
    (slot time : Value) (position : Nat) (ix : Value) : Act n (Option Payload) := do
  if !(← c.isOwn ix keys) then return none
  match ← eventOf? ix keys with
  | none => return none
  | some (e, accounts) =>
    match e.family? with
    | none => return none
    | some f =>
      let data ← c.recordOf rpc e f accounts
      let event ← Event.make e j.signature (.int position) slot time
      return some ⟨c.network.word, event, data⟩

/-- The payloads of instructions, which are numbered from `position` on. -/
def payloadsOf (c : Client) (rpc : Rpc n) (j : TransactionJob) (keys : List Value)
    (slot time : Value) : (position : Nat) → List Value → Act n (List Payload)
  | _, [] => return []
  | position, ix :: rest => do
    let payload? ← (c.payloadOf? rpc j keys slot time position ix).rewording isUndecoded
      (.instructionUndecoded position j.signature)
    let payloads ← payloadsOf c rpc j keys slot time (position + 1) rest
    return payload?.toList ++ payloads

/-- The payloads of a transaction, none if it failed or holds nothing that is mapped. -/
def processTransaction (c : Client) (rpc : Rpc n) (j : TransactionJob) :
    Act n (Option (List Payload)) := do
  let tx ← fetchTransaction rpc j.signature
  let details := (← tx.get "meta").orElse (.object [])
  let err ← details.get "err"
  if !err.isNull then return none
  let message ← Act.rewording (do messageOf tx details) isNoMessage fun _ => .noMessage j.signature
  let slot := (← tx.getD "slot" j.slot).orElse (.int 0)
  let time ← tx.get "blockTime"
  let instructions ← message.instructions.elements
  let payloads ← c.payloadsOf rpc j message.keys slot time 0 instructions
  return if payloads.isEmpty then none else some payloads

/-- The payloads of a job, which must be a transaction. -/
def process (c : Client) (rpc : Rpc n) : Job → Act n (Option (List Payload))
  | .transaction j => c.processTransaction rpc j
  | j => throw (.jobMismatch "SolanaClient" c.network.word j.title)

/-- The transactions of a program as a ledger. -/
def adapter (c : Client) (rpc : Rpc n) : Adapter (StateT Backlog n) where
  fetch cursor := do
    let (jobs, next) ← c.fetchPage rpc cursor
    return (jobs.map .transaction, next)
  process j := Act.within (c.process rpc j)

end Client

end ChainIndexer.Solana
