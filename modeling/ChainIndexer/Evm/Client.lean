import ChainIndexer.Abi.Reader
import ChainIndexer.Abi.Value
import ChainIndexer.Adapter
import ChainIndexer.Cursor.Stored
import ChainIndexer.Evm.Contract
import ChainIndexer.Evm.Event
import ChainIndexer.Evm.Topic
import ChainIndexer.Network
import ChainIndexer.Options
import ChainIndexer.Push.Code

/-!
Indexing the logs of the contract by ranges of blocks. A page is a range of blocks from the cursor
on, cut off at the head of the chain; its jobs are the logs of the range in the order of the chain.
A log names a record, and the rest of the record is read from the state of the contract at the block
of the log. The timestamps of the blocks of a page are remembered until the next page is fetched.
-/

namespace ChainIndexer.Evm

open Push Abi

/-- The timestamps of blocks that are remembered. -/
abbrev Timestamps := List (Int × Int)

structure Client where
  network : Network
  contract : String
  pageSize : Int
  deriving DecidableEq, Repr

namespace Client

/-- A client from its options, if the address of the contract is one. -/
def ofOptions (o : Options) : Except Failure Client := do
  let contract ← contractAddress (.text o.contractAddress)
  return ⟨o.network, contract, o.pageSize⟩

variable {n : Type → Type} [Monad n]

def latestBlock (rpc : Rpc n) : Act n Int := do
  let head ← rpc "eth_blockNumber" []
  head.readHex

def fetchLogs (c : Client) (rpc : Rpc n) (first last : Int) : Act n (List Value) := do
  if first < 0 ∨ last < first then throw .blockRangeInvalid
  let answer ← rpc "eth_getLogs"
    [.object [("address", .text c.contract), ("fromBlock", .text (Numeral.hexadecimal first)),
      ("toBlock", .text (Numeral.hexadecimal last))]]
  match answer with
  | .list logs => return logs
  | _ => throw (.notAList "eth_getLogs")

/-- The timestamp of a block, from the node unless it is remembered. -/
def blockTimestamp (rpc : Rpc n) (block : Whole) : Act (StateT Timestamps n) Int := do
  let known ← Act.memory
  match known.find? fun k => k.1 == block.toInt with
  | some (_, t) => return t
  | none =>
    let answer ← Act.within (rpc "eth_getBlockByNumber"
      [.text (Numeral.hexadecimal block.toInt), .bool false])
    if !answer.truthy then throw (.blockNotReady block)
    let stamp ← answer.item "timestamp"
    let t ← stamp.readHex
    Act.remember ((block.toInt, t) :: known)
    return t

/-- The data of a call: four bytes of the digest of the signature, and the arguments. -/
def callData (signature : String) (types : List Ty) (args : Ty.Vals types) : String :=
  "0x" ++ Hex.write ((Keccak.ofText signature).take 4 ++ Abi.write (.tuple types) args)

/-- What the contract answers to a call at a block. -/
def readState (c : Client) (rpc : Rpc n) (signature : String) (types : List Ty)
    (args : Ty.Vals types) (out : Ty) (block : Whole) : Act n out.Val := do
  let answer ← rpc "eth_call"
    [.object [("to", .text c.contract), ("data", .text (callData signature types args))],
      .text (Numeral.hexadecimal block.toInt)]
  let bs ← hexBytes answer
  if bs.isEmpty then throw (.noState signature block)
  Abi.read out bs

/-- The values of the parameters of a log that are no topics. -/
def logBody (log : Value) (types : List Ty) : Except Failure (Ty.Vals types) := do
  let bs ← hexBytes (← log.get "data")
  readAll types bs

def reporterState : Ty :=
  .tuple [.uint 128, .address, .string, .string, .uint 8, .uint 8, .uint 256, .uint 256]

def caseState : Ty :=
  .tuple [.uint 128, .string, .uint 128, .uint 8, .string]

def addressState : Ty :=
  .tuple [.address, .uint 128, .uint 128, .uint 256, .uint 8, .uint 8]

def assetState : Ty :=
  .tuple [.address, .uint 256, .uint 128, .uint 128, .uint 256, .uint 8, .uint 8]

/-- The reporter that a log names: its account and role from the log, the rest from the state. -/
def reporterOf (c : Client) (rpc : Rpc n) (log : Value) (block : Whole) : Act n Data := do
  let id ← topicId (← topicAt log 1)
  let (account, role, _) ← logBody log [.address, .uint 8]
  if h : id < 2 ^ 128 then
    let state ← c.readState rpc "getReporter(uint128)" [.uint 128] (⟨id, h⟩, ()) reporterState block
    let (_, _, name, url, _, status, stake, unlock, _) := state
    let role : ReporterRole ← Vocabulary.ofCodeNumber role.val
    let status : ReporterStatus ← Vocabulary.ofCodeNumber status.val
    Data.make .reporter
      [("id", .int id), ("account", .text (addressText account.val)), ("role", wordValue role),
        ("status", wordValue status), ("name", .text name), ("url", .text url),
        ("stake", .int stake.val), ("unlock_timestamp", .int unlock.val)]
  else throw (.fault .notEncodable)

/-- The case that a log names, from the state. -/
def caseOf (c : Client) (rpc : Rpc n) (log : Value) (block : Whole) : Act n Data := do
  let id ← topicId (← topicAt log 1)
  if h : id < 2 ^ 128 then
    let state ← c.readState rpc "getCase(uint128)" [.uint 128] (⟨id, h⟩, ()) caseState block
    let (_, name, reporter, status, url, _) := state
    let status : CaseStatus ← Vocabulary.ofCodeNumber status.val
    Data.make .case
      [("id", .int id), ("name", .text name), ("url", .text url), ("status", wordValue status),
        ("reporter_id", .int reporter.val)]
  else throw (.fault .notEncodable)

/-- The address that a log names: its risk and category from the log, the rest from the state. -/
def addressOf (c : Client) (rpc : Rpc n) (log : Value) (block : Whole) : Act n Data := do
  let address ← topicAddress (← topicAt log 1)
  let (risk, category, _) ← logBody log [.uint 8, .uint 8]
  if h : address.length = 20 then
    let state ← c.readState rpc "getAddress(address)" [.address] (⟨address, h⟩, ()) addressState
      block
    let (_, caseId, reporter, confirmations, _) := state
    let category : Category ← Vocabulary.ofCodeNumber category.val
    Data.make .address
      [("address", .text (addressText address)), ("case_id", .int caseId.val),
        ("reporter_id", .int reporter.val), ("risk", .int risk.val),
        ("category", wordValue category), ("confirmations", .int confirmations.val)]
  else throw (.fault .notEncodable)

/-- The asset that a log names: its identifier, risk and category from the log, the rest from the
state. -/
def assetOf (c : Client) (rpc : Rpc n) (log : Value) (block : Whole) : Act n Data := do
  let address ← topicAddress (← topicAt log 1)
  let (asset, risk, category, _) ← logBody log [.uint 256, .uint 8, .uint 8]
  if h : address.length = 20 then
    let state ← c.readState rpc "getAsset(address,uint256)" [.address, .uint 256]
      (⟨address, h⟩, asset, ()) assetState block
    let (_, _, caseId, reporter, confirmations, _) := state
    let category : Category ← Vocabulary.ofCodeNumber category.val
    Data.make .asset
      [("address", .text (addressText address)), ("asset_id", .text (Numeral.natural asset.val)),
        ("case_id", .int caseId.val), ("reporter_id", .int reporter.val), ("risk", .int risk.val),
        ("category", wordValue category), ("confirmations", .int confirmations.val)]
  else throw (.fault .notEncodable)

/-- The record of a family that a log names. -/
def recordOf (c : Client) (rpc : Rpc n) : Family → (log : Value) → (block : Whole) → Act n Data
  | .reporter => c.reporterOf rpc
  | .case => c.caseOf rpc
  | .address => c.addressOf rpc
  | .asset => c.assetOf rpc

/-- The failures that say of a log that it cannot be decoded. -/
def isUndecoded (k : Kind) : Bool :=
  k.isBadValue || k == .fault .notAbi || k == .fault .notEncodable

/-- The payload of a log of an event that carries a record. -/
def payloadOf (c : Client) (rpc : Rpc n) (j : LogJob) (e : EventName) (f : Family)
    (block : Whole) : Act (StateT Timestamps n) Payload := do
  let data ← Act.within (c.recordOf rpc f j.log block)
  let tx ← j.txHash
  let index ← j.logIndex
  let stamp ← blockTimestamp rpc block
  let event ← Event.make e (.text tx) (.ofWhole index) (.ofWhole block) (.int stamp)
  return ⟨c.network.word, event, data⟩

/-- The event of a log by its first topic, none if it is not one of the contract. -/
def eventOf? (j : LogJob) : Except Failure (Option EventName) := do
  let all ← topics j.log
  if !all.truthy then throw (.noTopics (← j.txHash))
  return eventOfTopic? (Text.toLower (← all.index 0).shown)

/-- The payloads of a log: one if its event carries a record. -/
def processLog (c : Client) (rpc : Rpc n) (j : LogJob) :
    Act (StateT Timestamps n) (Option (List Payload)) := do
  match ← eventOf? j with
  | none => return none
  | some e =>
    match e.family? with
    | none => return none
    | some f =>
      let block ← j.blockNumber
      let tx ← j.txHash
      let payload ← (c.payloadOf rpc j e f block).rewording isUndecoded (.eventUndecoded e tx)
      return some [payload]

/-- The logs that have not been removed from the chain. -/
def liveLogs : List Value → Except Fault (List LogJob)
  | [] => .ok []
  | log :: rest => do
    let removed ← log.get "removed"
    let live ← liveLogs rest
    return if removed.truthy then live else ⟨log⟩ :: live

/-- A log with its place in the chain: the number of its block and the position in the block. -/
structure Placed where
  block : Int
  index : Int
  job : LogJob

def place (j : LogJob) : Except Fault Placed := do
  let block ← j.blockNumber
  let index ← j.logIndex
  return ⟨block.toInt, index.toInt, j⟩

/-- Whether a log stands before another one, or at the same place. -/
def Placed.isBefore (a b : Placed) : Bool :=
  a.block < b.block || (a.block == b.block && a.index ≤ b.index)

/-- Logs in the order of the chain; logs of one place stay in their order. -/
def inOrder (jobs : List LogJob) : Except Fault (List LogJob) := do
  let placed ← jobs.mapM place
  return (placed.mergeSort Placed.isBefore).map (·.job)

def wrongCursor (c : Candidate) : Failure :=
  .wrongCursor "EVM" "block" c

/-- The height that a cursor stands for. -/
def heightOf : Cursor → Except Failure Whole
  | .start => .ok (.number 0)
  | .block h _ => .ok h
  | c => .error (wrongCursor c)

/-- The page of logs from a cursor on. -/
def fetchPage (c : Client) (rpc : Rpc n) (cursor : Cursor) :
    Act (StateT Timestamps n) (List LogJob × Cursor) := do
  let first := (← heightOf cursor).toInt
  let head ← Act.within (latestBlock rpc)
  if first > head then return ([], cursor)
  let last := min (first + c.pageSize - 1) head
  let logs ← Act.within (c.fetchLogs rpc first last)
  let live ← liveLogs logs
  let jobs ← inOrder live
  Act.remember []
  let next ← Cursor.ofHeight (.number (last + 1))
  return (jobs, next)

/-- The payloads of a job, which must be a log. -/
def process (c : Client) (rpc : Rpc n) : Job → Act (StateT Timestamps n) (Option (List Payload))
  | .log j => c.processLog rpc j
  | j => throw (.jobMismatch "EvmClient" c.network.word j.title)

/-- The logs of a contract as a ledger. -/
def adapter (c : Client) (rpc : Rpc n) : Adapter (StateT Timestamps n) where
  fetch cursor := do
    let (jobs, next) ← c.fetchPage rpc cursor
    return (jobs.map .log, next)
  process := c.process rpc

end Client

end ChainIndexer.Evm
