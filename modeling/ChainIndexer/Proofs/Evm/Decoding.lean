import ChainIndexer.Proofs.Abi
import ChainIndexer.Proofs.Evm.Processing
import ChainIndexer.Proofs.Evm.Topic

/-!
Decoding the log of an event undoes the encoding of the contract. A `Filing` is what the contract
has on file about a record: what it says in the log, and then its state, which says some of that
again and may say it differently. Log and state are encoded on the side of the contract, and the
record that comes out has the fields of the log where there are any, and those of the state
elsewhere.
-/

namespace ChainIndexer.Evm

open Act Push Abi

/-- The byte in which the contract keeps a member of a vocabulary. -/
def codeByte {α : Type} [Vocabulary α] [BEq α] (a : α) : Fin (2 ^ 8) :=
  Fin.ofNat (2 ^ 8) (Vocabulary.code a)

theorem ofCodeNumber_codeByte {α : Type} [Vocabulary α] [LawfulVocabulary α] [BEq α] [LawfulBEq α]
    (a : α) : Vocabulary.ofCodeNumber (codeByte a).val = .ok a :=
  Vocabulary.ofCodeNumber_iff.mpr (Nat.mod_eq_of_lt (Vocabulary.code_lt a))

/-! ### What the contract has on file -/

structure ReporterFiling where
  id : Fin (2 ^ 128)
  account : AddressBytes
  role : ReporterRole
  -- the state
  statedId : Fin (2 ^ 128)
  statedAccount : AddressBytes
  name : String
  url : String
  statedRole : Fin (2 ^ 8)
  status : ReporterStatus
  stake : Fin (2 ^ 256)
  unlock : Fin (2 ^ 256)

structure CaseFiling where
  id : Fin (2 ^ 128)
  -- the state
  statedId : Fin (2 ^ 128)
  name : String
  reporter : Fin (2 ^ 128)
  status : CaseStatus
  url : String

structure AddressFiling where
  address : AddressBytes
  risk : Fin (maxRisk + 1)
  category : Category
  -- the state
  statedAddress : AddressBytes
  caseId : Fin (2 ^ 128)
  reporter : Fin (2 ^ 128)
  confirmations : Fin (2 ^ 256)
  statedRisk : Fin (2 ^ 8)
  statedCategory : Fin (2 ^ 8)

structure AssetFiling where
  address : AddressBytes
  asset : Fin (2 ^ 256)
  risk : Fin (maxRisk + 1)
  category : Category
  -- the state
  statedAddress : AddressBytes
  statedAsset : Fin (2 ^ 256)
  caseId : Fin (2 ^ 128)
  reporter : Fin (2 ^ 128)
  confirmations : Fin (2 ^ 256)
  statedRisk : Fin (2 ^ 8)
  statedCategory : Fin (2 ^ 8)

/-- What the contract has on file about a record: what it says in the log of an event, and its
state. -/
inductive Filing where
  | reporter (r : ReporterFiling)
  | case (k : CaseFiling)
  | address (a : AddressFiling)
  | asset (a : AssetFiling)

namespace Filing

def family : Filing → Family
  | .reporter _ => .reporter
  | .case _ => .case
  | .address _ => .address
  | .asset _ => .asset

/-- The word of the second topic. -/
def word : Filing → Bytes
  | .reporter r => write (.uint 128) r.id
  | .case k => write (.uint 128) k.id
  | .address a => write .address a.address
  | .asset a => write .address a.address

/-- The parameters of the log that are no topics. -/
def body : Filing → Bytes
  | .reporter r => write (.tuple [.address, .uint 8]) (r.account, codeByte r.role, ())
  | .case _ => write (.tuple []) ()
  | .address a =>
    write (.tuple [.uint 8, .uint 8]) (a.risk.castLE (by decide), codeByte a.category, ())
  | .asset a =>
    write (.tuple [.uint 256, .uint 8, .uint 8])
      (a.asset, a.risk.castLE (by decide), codeByte a.category, ())

/-- The answer with the state. -/
def state : Filing → Bytes
  | .reporter r =>
    write (.tuple [Client.reporterState])
      ((r.statedId, r.statedAccount, r.name, r.url, r.statedRole, codeByte r.status, r.stake,
        r.unlock, ()), ())
  | .case k =>
    write (.tuple [Client.caseState])
      ((k.statedId, k.name, k.reporter, codeByte k.status, k.url, ()), ())
  | .address a =>
    write (.tuple [Client.addressState])
      ((a.statedAddress, a.caseId, a.reporter, a.confirmations, a.statedRisk, a.statedCategory, ()),
        ())
  | .asset a =>
    write (.tuple [Client.assetState])
      ((a.statedAddress, a.statedAsset, a.caseId, a.reporter, a.confirmations, a.statedRisk,
        a.statedCategory, ()), ())

/-- The signature of the function that answers with the state. -/
def getter : Filing → String
  | .reporter _ => "getReporter(uint128)"
  | .case _ => "getCase(uint128)"
  | .address _ => "getAddress(address)"
  | .asset _ => "getAsset(address,uint256)"

/-- What the function is asked about. -/
def arguments : Filing → Bytes
  | .reporter r => write (.tuple [.uint 128]) (r.id, ())
  | .case k => write (.tuple [.uint 128]) (k.id, ())
  | .address a => write (.tuple [.address]) (a.address, ())
  | .asset a => write (.tuple [.address, .uint 256]) (a.address, a.asset, ())

/-- The record, with the fields of the log where there are any. -/
def record : Filing → Data
  | .reporter r =>
    .reporter ⟨r.id, addressText r.account.val, r.role, r.status, r.name, r.url, r.stake, r.unlock⟩
  | .case k => .case ⟨k.id, k.status, k.name, k.url, k.reporter⟩
  | .address a =>
    .address ⟨addressText a.address.val, a.caseId, a.reporter, a.risk, a.category, a.confirmations⟩
  | .asset a =>
    .asset ⟨addressText a.address.val, Numeral.natural a.asset, a.caseId, a.reporter, a.risk,
      a.category, a.confirmations⟩

end Filing

/-- The parameters of a call of a function of the contract at a block: four bytes of the digest of
its signature, and the encoding of its arguments. -/
def callParams (c : Client) (signature : String) (arguments : Bytes) (block : Whole) : List Value :=
  [.object [("to", .text c.contract),
      ("data", .text ("0x" ++ Hex.write ((Keccak.ofText signature).take 4 ++ arguments)))],
    .text (Numeral.hexadecimal block.toInt)]

/-- A log of an event: its topics are the one of the event and a word, the rest is its data. -/
structure IsLogOf (log : Value) (e : EventName) (f : Filing) : Prop where
  topics : ∃ s s', log.get "topics" = .ok (.list [.text s, .text s']) ∧
    Hex.Spells s (Keccak.ofText (eventSignature e)) ∧ Hex.Spells s' f.word
  data : ∃ s, log.get "data" = .ok (.text s) ∧ Hex.Spells s f.body

namespace Client

variable {sc : Scenario} {c : Client} {log : Value} {e : EventName} {f : Filing} {w : World}
  {block : Whole}

theorem exec_readState {signature : String} {types : List Ty} {args : Ty.Vals types} {out : Ty}
    {v : out.Val} {s : String} (hout : out.isProper = true)
    (hlength : (write (.tuple [out]) (v, ())).length < lengthBound)
    (hs : Hex.Spells s (write (.tuple [out]) (v, ())))
    (hnode : sc.node w.clock "eth_call" (callParams c signature (write (.tuple types) args) block) =
      .ok (.text s)) :
    Act.exec (c.readState sc.rpc signature types args out block) w =
      (.ok v, w.after [.asked "eth_call"
        (callParams c signature (write (.tuple types) args) block) (.ok (.text s))]) := by
  have hany : (write (.tuple [out]) (v, ())).isEmpty = false := by
    have htuple : (Ty.tuple [out]).isProper = true := by simp [Ty.isProper, Ty.allProper, hout]
    have hpos := length_write_pos htuple (v, ())
    rwa [List.isEmpty_eq_false_iff, ← List.length_pos_iff]
  have hread := read_write hout v [] (by rwa [List.append_nil])
  rw [List.append_nil] at hread
  refine (exec_bind_of_ok (Scenario.exec_rpc hnode) _).trans ?_
  refine (exec_lift_bind (hexBytes_of_spells hs) _ _).trans ?_
  rw [hany]
  exact (exec_liftFault _ _).trans (by rw [hread]; rfl)

/-- Parameters of static types are found in the data of a log. -/
theorem logBody_write {types : List Ty} (htypes : Ty.allProper types = true) (hany : types ≠ [])
    (hstatic : (Ty.tuple types).isDynamic = false) (hwidth : (Ty.tuple types).width < lengthBound)
    {vs : Ty.Vals types} {s : String} (hdata : log.get "data" = .ok (.text s))
    (hs : Hex.Spells s (write (.tuple types) vs)) : logBody log types = .ok vs := by
  have hlength : (write (.tuple types) vs).length < lengthBound := by
    rwa [length_write (.tuple types) hstatic vs]
  have hread := readAll_write htypes hany vs [] (by rwa [List.append_nil])
  rw [List.append_nil] at hread
  rw [logBody, hdata]
  change (do let bs ← hexBytes (.text s); readAll types bs) = .ok vs
  rw [hexBytes_of_spells hs]
  exact liftFault_ok_iff.mpr hread

/-- The account of a lookup of a state. -/
def lookup (c : Client) (f : Filing) (block : Whole) (answer : String) : Incident :=
  .asked "eth_call" (callParams c f.getter f.arguments block) (.ok (.text answer))

/-- The node answers at a time with the state that a contract has on file. -/
structure Answers (sc : Scenario) (c : Client) (f : Filing) (block : Whole) (time : Nat)
    (answer : String) : Prop where
  node : sc.node time "eth_call" (callParams c f.getter f.arguments block) = .ok (.text answer)
  spells : Hex.Spells answer f.state
  /-- No more bytes than can be addressed. -/
  length : f.state.length < lengthBound

variable {answer : String}

theorem exec_reporterOf {r : ReporterFiling} (hlog : IsLogOf log e (.reporter r))
    (h : Answers sc c (.reporter r) block w.clock answer) :
    Act.exec (c.reporterOf sc.rpc log block) w =
      (.ok (Filing.reporter r).record, w.after [lookup c (.reporter r) block answer]) := by
  obtain ⟨_, _, htopics, -, hword⟩ := hlog.topics
  obtain ⟨_, hdata, hbody⟩ := hlog.data
  refine (exec_lift_bind (topicAt_one htopics hword (Bytes.length_toBig _ _)) _ _).trans ?_
  refine (exec_lift_bind (topicId_write r.id) _ _).trans ?_
  refine (exec_lift_bind (logBody_write rfl (by simp) rfl (by decide) hdata hbody) _ _).trans ?_
  dsimp only
  rw [dif_pos r.id.isLt]
  refine (exec_bind_of_ok (exec_readState rfl h.length h.spells h.node) _).trans ?_
  refine (exec_lift_bind (ofCodeNumber_codeByte r.role) _ _).trans ?_
  refine (exec_lift_bind (ofCodeNumber_codeByte r.status) _ _).trans ?_
  rw [make_reporter r.id.isLt]
  exact exec_lift _ _

theorem exec_caseOf {k : CaseFiling} (hlog : IsLogOf log e (.case k))
    (h : Answers sc c (.case k) block w.clock answer) :
    Act.exec (c.caseOf sc.rpc log block) w =
      (.ok (Filing.case k).record, w.after [lookup c (.case k) block answer]) := by
  obtain ⟨_, _, htopics, -, hword⟩ := hlog.topics
  refine (exec_lift_bind (topicAt_one htopics hword (Bytes.length_toBig _ _)) _ _).trans ?_
  refine (exec_lift_bind (topicId_write k.id) _ _).trans ?_
  rw [dif_pos k.id.isLt]
  refine (exec_bind_of_ok (exec_readState rfl h.length h.spells h.node) _).trans ?_
  refine (exec_lift_bind (ofCodeNumber_codeByte k.status) _ _).trans ?_
  rw [make_case k.id.isLt k.reporter.isLt]
  exact exec_lift _ _

theorem exec_addressOf {a : AddressFiling} (hlog : IsLogOf log e (.address a))
    (h : Answers sc c (.address a) block w.clock answer) :
    Act.exec (c.addressOf sc.rpc log block) w =
      (.ok (Filing.address a).record, w.after [lookup c (.address a) block answer]) := by
  obtain ⟨_, _, htopics, -, hword⟩ := hlog.topics
  obtain ⟨_, hdata, hbody⟩ := hlog.data
  have hrisk : ¬maxRisk < a.risk.val := Nat.not_lt.mpr (Nat.le_of_lt_succ a.risk.isLt)
  refine (exec_lift_bind (topicAt_one htopics hword (length_write .address rfl _)) _ _).trans ?_
  refine (exec_lift_bind (topicAddress_write a.address) _ _).trans ?_
  refine (exec_lift_bind (logBody_write rfl (by simp) rfl (by decide) hdata hbody) _ _).trans ?_
  dsimp only
  rw [dif_pos a.address.property]
  refine (exec_bind_of_ok (exec_readState rfl h.length h.spells h.node) _).trans ?_
  refine (exec_lift_bind (ofCodeNumber_codeByte a.category) _ _).trans ?_
  refine (exec_lift _ _).trans ?_
  refine congrArg (·, _) ((make_address a.caseId.isLt a.reporter.isLt _ _ _ _).trans (if_neg hrisk))

theorem exec_assetOf {a : AssetFiling} (hlog : IsLogOf log e (.asset a))
    (h : Answers sc c (.asset a) block w.clock answer) :
    Act.exec (c.assetOf sc.rpc log block) w =
      (.ok (Filing.asset a).record, w.after [lookup c (.asset a) block answer]) := by
  obtain ⟨_, _, htopics, -, hword⟩ := hlog.topics
  obtain ⟨_, hdata, hbody⟩ := hlog.data
  have hrisk : ¬maxRisk < a.risk.val := Nat.not_lt.mpr (Nat.le_of_lt_succ a.risk.isLt)
  refine (exec_lift_bind (topicAt_one htopics hword (length_write .address rfl _)) _ _).trans ?_
  refine (exec_lift_bind (topicAddress_write a.address) _ _).trans ?_
  refine (exec_lift_bind (logBody_write rfl (by simp) rfl (by decide) hdata hbody) _ _).trans ?_
  dsimp only
  rw [dif_pos a.address.property]
  refine (exec_bind_of_ok (exec_readState rfl h.length h.spells h.node) _).trans ?_
  refine (exec_lift_bind (ofCodeNumber_codeByte a.category) _ _).trans ?_
  refine (exec_lift _ _).trans ?_
  refine congrArg (·, _) ((make_asset a.caseId.isLt a.reporter.isLt _ _ _ _ _).trans (if_neg hrisk))

/-- The record of a log is the one that is on file, for which the state is looked up once. -/
theorem exec_recordOf (hlog : IsLogOf log e f) (h : Answers sc c f block w.clock answer) :
    Act.exec (c.recordOf sc.rpc f.family log block) w =
      (.ok f.record, w.after [lookup c f block answer]) := by
  cases f with
  | reporter r => exact exec_reporterOf hlog h
  | case k => exact exec_caseOf hlog h
  | address a => exact exec_addressOf hlog h
  | asset a => exact exec_assetOf hlog h

theorem eventOf?_of_isLogOf (hlog : IsLogOf log e f) : eventOf? ⟨log⟩ = .ok (some e) := by
  obtain ⟨s, s', htopics, hs, -⟩ := hlog.topics
  have hall : topics log = .ok (.list [.text s, .text s']) := by
    rw [topics, htopics]
    rfl
  have hevent : eventOfTopic? (Text.toLower s) = some e :=
    eventOfTopic?_iff.mpr (Hex.toLower_of_spells hs)
  rw [eventOf?, hall, ← hevent]
  rfl

/-- The parameters of a request for a block. -/
def blockParams (block : Whole) : List Value :=
  [.text (Numeral.hexadecimal block.toInt), .bool false]

/-- The node answers at a time with a block of a timestamp. -/
def Stamps (sc : Scenario) (block : Whole) (stamp : Nat) (time : Nat) : Prop :=
  ∃ fields, sc.node time "eth_getBlockByNumber" (blockParams block) = .ok (.object fields) ∧
    Value.field? fields "timestamp" = some (.text (Numeral.hexadecimal stamp))

section Timestamps

variable {n : Type → Type} [Monad n] {σ : Type} [Threaded n σ] {rpc : Rpc n} {known : Timestamps}
  {s s' : σ}

theorem exec_blockTimestamp_of_known {k : Int × Int}
    (hknown : known.find? (fun k => k.1 == block.toInt) = some k) :
    Act.exec (blockTimestamp rpc block) (known, s) = (.ok k.2, known, s) := by
  rw [blockTimestamp, exec_bind_of_ok (exec_memory known s), hknown]
  exact exec_pure _ _

theorem exec_blockTimestamp_of_asked {fields : List (String × Value)} {stamp : Value} {t : Int}
    (hunknown : known.find? (fun k => k.1 == block.toInt) = none)
    (hanswer : Act.exec (rpc "eth_getBlockByNumber" (blockParams block)) s =
      (.ok (.object fields), s'))
    (hfield : Value.field? fields "timestamp" = some stamp) (hread : stamp.readHex = .ok t) :
    Act.exec (blockTimestamp rpc block) (known, s) = (.ok t, (block.toInt, t) :: known, s') := by
  have hthere : (Value.object fields).truthy = true := by
    cases fields with
    | nil => cases hfield
    | cons => rfl
  have hitem : (Value.object fields).item "timestamp" = .ok stamp := by
    simp only [Value.item, hfield]
  rw [blockTimestamp, exec_bind_of_ok (exec_memory known s), hunknown]
  refine (exec_bind_of_ok (exec_within_eq hanswer known) _).trans ?_
  rw [hthere]
  refine (exec_liftFault_bind hitem _ _).trans ?_
  refine (exec_liftFault_bind hread _ _).trans ?_
  exact (exec_bind_of_ok (exec_remember _ _ _) _).trans (exec_pure _ _)

end Timestamps

/-- The timestamp of a block is remembered, or the node is asked for it. -/
theorem exec_blockTimestamp {known : Timestamps} {stamp : Nat}
    (hknown : ∀ t, (block.toInt, t) ∈ known → t = stamp) (hstamps : Stamps sc block stamp w.clock) :
    ∃ known' w' es, Act.exec (blockTimestamp sc.rpc block) (known, w) = (.ok stamp, known', w') ∧
      w.Reaches w' es ∧
      ∀ i ∈ es, ∃ found, i = .asked "eth_getBlockByNumber" (blockParams block) found := by
  cases hfind : known.find? fun k => k.1 == block.toInt with
  | some k =>
    have hbeq := List.find?_some hfind
    have hblock : k.1 = block.toInt := eq_of_beq hbeq
    have hstamp : k.2 = stamp := by
      refine hknown k.2 ?_
      rw [← hblock]
      exact List.mem_of_find?_eq_some hfind
    refine ⟨known, w, [], ?_, World.Reaches.refl w, by simp⟩
    rw [← hstamp]
    exact exec_blockTimestamp_of_known hfind
  | none =>
    obtain ⟨fields, hnode, hfield⟩ := hstamps
    have hread : (Value.text (Numeral.hexadecimal stamp)).readHex = .ok (stamp : Int) := by
      simp only [Value.readHex, Numeral.read?_hexadecimal]
    refine ⟨(block.toInt, (stamp : Int)) :: known, _,
      [.asked "eth_getBlockByNumber" (blockParams block) (.ok (.object fields))], ?_,
      w.reaches_after _, by simp⟩
    exact exec_blockTimestamp_of_asked hfind (Scenario.exec_rpc hnode) hfield hread

/-- Whatever the contract has on file about the record of an event, the log of the event is decoded
into one payload with this record, at its place in the chain and with the timestamp of its block.
The state is asked for once, by the getter of the record and at the block of the log; the copies in
it of what the log says do not matter. -/
theorem process_decodes (c : Client) (sc : Scenario) (e : EventName) (f : Filing)
    (mapped : e.family? = some f.family) (log : Value) (isLog : IsLogOf log e f) (tx : String)
    (index block : Whole) (hasHash : LogJob.txHash ⟨log⟩ = .ok tx)
    (hasIndex : LogJob.logIndex ⟨log⟩ = .ok index)
    (hasBlock : LogJob.blockNumber ⟨log⟩ = .ok block) (indexNatural : 0 ≤ index.toInt)
    (blockNatural : 0 ≤ block.toInt) (known : Timestamps) (w : World) (answer : String)
    (answers : Answers sc c f block w.clock answer) (stamp : Nat)
    (remembers : ∀ t, (block.toInt, t) ∈ known → t = stamp)
    (stamps : Stamps sc block stamp (w.clock + 1)) :
    ∃ known' w' es, Act.exec (c.process sc.rpc (.log ⟨log⟩)) (known, w) =
        (.ok (some [⟨c.network.word,
          ⟨e, tx, index.toInt.toNat, block.toInt.toNat, some stamp⟩, f.record⟩]), known', w') ∧
      w.Reaches w' (lookup c f block answer :: es) ∧
      ∀ i ∈ es, ∃ found, i = .asked "eth_getBlockByNumber" (blockParams block) found := by
  have hlater : (w.after [lookup c f block answer]).clock = w.clock + 1 := rfl
  rw [← hlater] at stamps
  obtain ⟨known', w', es, hstamp, hreach, hes⟩ := exec_blockTimestamp remembers stamps
  have hpayload : Act.exec (c.payloadOf sc.rpc ⟨log⟩ e f.family block) (known, w) =
      (.ok ⟨c.network.word, ⟨e, tx, index.toInt.toNat, block.toInt.toNat, some (stamp : Int)⟩,
        f.record⟩, known', w') := by
    refine (exec_bind_of_ok (exec_within_eq (exec_recordOf isLog answers) known) _).trans ?_
    refine (exec_liftFault_bind hasHash _ _).trans ?_
    refine (exec_liftFault_bind hasIndex _ _).trans ?_
    refine (exec_bind_of_ok hstamp _).trans ?_
    have hevent := make_event indexNatural blockNatural e tx (some (stamp : Int))
    exact (exec_lift_bind hevent _ _).trans (exec_pure _ _)
  refine ⟨known', w', es, ?_, (w.reaches_after _).trans hreach, hes⟩
  refine (exec_lift_bind (eventOf?_of_isLogOf isLog) _ _).trans ?_
  dsimp only
  rw [mapped]
  refine (exec_liftFault_bind hasBlock _ _).trans ?_
  refine (exec_liftFault_bind hasHash _ _).trans ?_
  refine (exec_bind_of_ok ?_ _).trans (exec_pure _ _)
  rw [exec_rewording, hpayload]
  rfl

/-! The log of a reporter that has taken another role and another account since. -/

def sampleReporter : ReporterFiling where
  id := 5
  account := ⟨List.replicate 20 0xab, rfl⟩
  role := .tracer
  statedId := 6
  statedAccount := ⟨List.replicate 20 0, rfl⟩
  name := "né"
  url := ""
  statedRole := 255
  status := .active
  stake := 10
  unlock := 0

def sampleFiling : Filing :=
  .reporter sampleReporter

def sampleLog : Value :=
  .object
    [("topics", .list
        [.text ("0x" ++ Hex.write (Keccak.ofText (eventSignature .updateReporter))),
          .text ("0x" ++ Hex.write sampleFiling.word)]),
      ("data", .text ("0x" ++ Hex.write sampleFiling.body)), ("blockNumber", .int 7),
      ("logIndex", .int 3), ("transactionHash", .text "h")]

def sampleAnswers : Scenario where
  node _ method _ :=
    if method = "eth_call" then .ok (.text ("0x" ++ Hex.write sampleFiling.state))
    else .ok (.object [("timestamp", .text (Numeral.hexadecimal 16))])
  sink _ _ := .accepted
  interrupt _ := none
  breakdown _ := none

def ethereumClient : Client :=
  ⟨.ethereum, "c", 1⟩

theorem sampleLog_decodes :
    (∃ known' w' es,
      Act.exec (ethereumClient.process sampleAnswers.rpc (.log ⟨sampleLog⟩)) ([], {}) =
        (.ok (some [⟨"ethereum", ⟨.updateReporter, "h", 3, 7, some 16⟩, sampleFiling.record⟩]),
          known', w') ∧
      World.Reaches {} w' (lookup ethereumClient sampleFiling (.number 7)
        ("0x" ++ Hex.write sampleFiling.state) :: es) ∧
      ∀ i ∈ es, ∃ found, i = .asked "eth_getBlockByNumber" (blockParams (.number 7)) found) ∧
    sampleFiling.record = .reporter
      ⟨5, "0xabababababababababababababababababababab", .tracer, .active, "né", "", 10, 0⟩ := by
  refine ⟨?_, by decide⟩
  exact process_decodes ethereumClient sampleAnswers .updateReporter sampleFiling rfl sampleLog
    ⟨⟨_, _, rfl, Hex.spells_write _, Hex.spells_write _⟩, ⟨_, rfl, Hex.spells_write _⟩⟩ "h"
    (.number 3) (.number 7) rfl rfl rfl (by decide) (by decide) [] {} _
    ⟨rfl, Hex.spells_write _, by decide +kernel⟩ 16 (by simp) ⟨_, rfl, rfl⟩

end Client

end ChainIndexer.Evm
