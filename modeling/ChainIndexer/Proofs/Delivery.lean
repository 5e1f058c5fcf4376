import ChainIndexer.Proofs.Evm.Delivery
import ChainIndexer.Proofs.Solana.Delivery

/-!
Delivery exactly once and in order, for either kind of ledger. The sink may see a payload several
times, as a step that breaks down is taken again; a receiver that keeps the first payload of each
key sees the mapped events of the ledger one after the other. At every moment of every run it has a
beginning of them that lacks nothing of what the committed cursor has consumed. The records in the
payloads may differ from one attempt to the next, and are not spoken of.
-/

namespace ChainIndexer

/-- Over every run that starts without a committed cursor, at every moment, the first occurrences of
the accepted keys are a beginning of the keys of the ledger in its order, without repetition, and
all keys before the committed cursor are among them. -/
theorem keys_accepted_once :
    (∀ (c : Evm.Client) (sc : Scenario) (ck : Checkpoint) (files : Files)
      (chain : Nat → List Value) (turns : List Turn),
      Evm.ServesLogs sc.node c.contract chain → Evm.WellPlaced chain →
      files.isThere ck.path = false →
        let r := c.course sc ck files turns
        ck.stored r.world.files = .ok (committedIn r.events) ∧
          ∃ height, ∀ es, es <+: r.events →
            ExactlyOnce (c.keysBelow chain height) (c.keysConsumed chain) es) ∧
    (∀ (c : Solana.Client) (sc : Scenario) (ck : Checkpoint) (files : Files)
      (ledger : Nat → List Solana.Record) (contents : String → Value) (turns : List Turn),
      Solana.Grows ledger → Solana.ServesSignatures sc.node c.program ledger →
      Solana.ServesTransactions sc.node contents → files.isThere ck.path = false →
        let r := c.course sc ck files turns
        ck.stored r.world.files = .ok (committedIn r.events) ∧
          ∀ es, es <+: r.events →
            ExactlyOnce (c.ledgerKeys contents (ledger r.world.clock))
              (c.keysConsumed contents (ledger r.world.clock)) es) := by
  constructor
  · intro c sc ck files chain turns serves placed absent r
    obtain ⟨height, bound, -, hdelivers⟩ := Evm.Client.delivers_course serves placed absent turns
    refine ⟨hdelivers.stored, bound, fun es hes => ?_⟩
    refine hdelivers.exactlyOnce (Evm.Client.keysBelow_nodup placed c bound) ?_ hes
    exact fun cursor ks hbehind => Evm.Client.keysConsumed_eq hbehind
  · intro c sc ck files ledger contents turns grows serves fixed absent r
    obtain ⟨consumed, -, hdelivers⟩ :=
      Solana.Client.delivers_course grows serves fixed absent turns
    have hdistinct := grows.distinct r.world.clock
    refine ⟨hdelivers.stored, fun es hes => ?_⟩
    refine hdelivers.exactlyOnce (Solana.Client.ledgerKeys_nodup c contents hdistinct) ?_ hes
    exact fun cursor ks hbehind => Solana.Client.keysConsumed_eq hdistinct hbehind

/-! Two runs. On a chain of two blocks with three created cases, the head goes back to block zero
after both blocks were fetched once, and the sink refuses the last payload at first. On the ledger
of `Solana.Client.sampleLedger`, each of whose transactions creates a case, the first payload is
accepted but its delivery fails; the page is then taken again, and longer. -/

section Samples

/-- A log of a created case. -/
def caseLog (block : Int) (tx : String) (index : Int) : Value :=
  .object [("blockNumber", .int block), ("logIndex", .int index), ("transactionHash", .text tx),
    ("topics", .list
      [.text "0x4d2b2bfebad7bddb74452e6ae4ade428be000ea3b1c8afdae305d9c2871c996f",
        .text ("0x" ++ Hex.write (Bytes.toBig 32 7))])]

def caseChain : Nat → List Value
  | 0 => [caseLog 0 "0xaa" 0]
  | 1 => [caseLog 1 "0xbb" 0, caseLog 1 "0xbb" 1]
  | _ => []

def caseState : Value :=
  .text ("0x" ++ Hex.write (Abi.write (.tuple [Evm.Client.caseState])
    ((⟨7, by decide⟩, "", ⟨2, by decide⟩, ⟨1, by decide⟩, "", ()), ())))

def rewindScenario : Scenario where
  node time method params :=
    if method = "eth_getLogs" then
      match Evm.requestedBlocks? "0xc" params with
      | some blocks => .ok (.list (blocks.flatMap caseChain).reverse)
      | none => .ok .null
    else if method = "eth_call" then .ok caseState
    else if method = "eth_getBlockByNumber" then .ok (.object [("timestamp", .text "0x5")])
    else .ok (.text (if 5 < time ∧ time < 30 then "0x0" else "0x1"))
  sink time p := if time < 20 ∧ p.event.txIndex = 1 then .refused .walkUnfinished else .accepted
  interrupt _ := none
  breakdown _ := none

theorem rewindScenario_serves : Evm.ServesLogs rewindScenario.node "0xc" caseChain := by
  intro time params blocks answer hrequest h
  simp only [rewindScenario, if_true, hrequest] at h
  exact ⟨_, (Except.ok.inj h).symm, List.reverse_perm _⟩

theorem liveIn_caseChain (b : Nat) : Evm.liveIn caseChain b = caseChain b := by
  match b with
  | 0 => rfl
  | 1 => rfl
  | _ + 2 => rfl

/-- The logs of the chain, with their blocks and transactions. -/
theorem mem_caseChain {b : Nat} {log : Value} (h : log ∈ Evm.liveIn caseChain b) :
    ∃ i : Nat, (b = 0 ∧ log = caseLog 0 "0xaa" i) ∨ (b = 1 ∧ log = caseLog 1 "0xbb" i) := by
  rw [liveIn_caseChain] at h
  match b with
  | 0 => exact ⟨0, Or.inl ⟨rfl, List.mem_singleton.mp h⟩⟩
  | 1 =>
    rcases List.mem_cons.mp h with rfl | h
    · exact ⟨0, Or.inr ⟨rfl, rfl⟩⟩
    · exact ⟨1, Or.inr ⟨rfl, List.mem_singleton.mp h⟩⟩
  | _ + 2 => cases h

theorem caseChain_placed : Evm.WellPlaced caseChain := by
  constructor
  · intro b log hlog
    obtain ⟨i, ⟨rfl, rfl⟩ | ⟨rfl, rfl⟩⟩ := mem_caseChain hlog
    · rfl
    · rfl
  · intro b
    rw [liveIn_caseChain]
    match b with
    | 0 => exact List.pairwise_singleton _ _
    | 1 => exact List.pairwise_pair.mpr Nat.zero_lt_one
    | _ + 2 => exact .nil
  · intro b b' log hlog log' hlog' htx _
    obtain ⟨i, ⟨rfl, rfl⟩ | ⟨rfl, rfl⟩⟩ := mem_caseChain hlog
    · obtain ⟨i', ⟨rfl, rfl⟩ | ⟨rfl, rfl⟩⟩ := mem_caseChain hlog'
      · rfl
      · have hsame : "0xaa" = "0xbb" := Except.ok.inj htx
        exact absurd hsame (by decide)
    · obtain ⟨i', ⟨rfl, rfl⟩ | ⟨rfl, rfl⟩⟩ := mem_caseChain hlog'
      · have hsame : "0xbb" = "0xaa" := Except.ok.inj htx
        exact absurd hsame (by decide)
      · rfl

def caseTransaction : Value :=
  .object [("meta", .object [("err", .null)]), ("slot", .int 7), ("blockTime", .int 5),
    ("transaction", .object [("message", .object [("accountKeys", .list [.text "P", .text "R"]),
      ("instructions", .list [.object [("programIdIndex", .int 0), ("data", .text "7VUf4tPzuK9"),
        ("accounts", .list [.int 1, .int 1, .int 1, .int 1])]])])])]

def caseAccount : Value :=
  .object [("value", .object [("owner", .text "P"), ("data", .list [.text <|
    "GN6TGjyimrAABwAAAAAAAAAAAAAAAAAAAAAAAAAAAAAAAAAAAAAAAAAAAAAAAAAA" ++
    "AAAAAAAAAAAAAAAAAAIAAAAAAAAAAAAAAAAAAAABAAAAAA=="])])]

def lostScenario : Scenario where
  node time method params :=
    if method = "getTransaction" then .ok caseTransaction
    else if method = "getAccountInfo" then .ok caseAccount
    else Solana.Client.sampleNode time method params
  sink time _ := if time < 5 then .lost .walkUnfinished else .accepted
  interrupt _ := none
  breakdown _ := none

theorem lostScenario_serves :
    Solana.ServesSignatures lostScenario.node "P" Solana.Client.sampleLedger := by
  intro time params listing answer before between after hlisting h
  exact Solana.Client.sampleNode_serves time params listing answer before between after hlisting h

theorem lostScenario_fixed :
    Solana.ServesTransactions lostScenario.node fun _ => caseTransaction := by
  intro time signature params answer h
  exact Or.inr (Except.ok.inj h).symm

/-- In both runs a receiver sees each case once. -/
theorem cases_accepted_once :
    (let c : Evm.Client := { network := .ethereum, contract := "0xc", pageSize := 5 }
      let r := c.course rewindScenario ⟨"cursor"⟩ {} [.step, .step, .restart, .step]
      (⟨"cursor"⟩ : Checkpoint).stored r.world.files = .ok (committedIn r.events) ∧
        ∃ height, ∀ es, es <+: r.events →
          ExactlyOnce (c.keysBelow caseChain height) (c.keysConsumed caseChain) es) ∧
    (let c := Solana.Client.sampleClient
      let r := c.course lostScenario ⟨"cursor"⟩ {} [.step, .step, .restart, .step]
      let ledger := Solana.Client.sampleLedger r.world.clock
      ((⟨"cursor"⟩ : Checkpoint).stored r.world.files = .ok (committedIn r.events) ∧
        ∀ es, es <+: r.events →
          ExactlyOnce (c.ledgerKeys (fun _ => caseTransaction) ledger)
            (c.keysConsumed (fun _ => caseTransaction) ledger) es) ∧
      acceptedKeys r.events = ["solana:a:0", "solana:a:0", "solana:c:0"]) :=
  ⟨keys_accepted_once.1 _ rewindScenario ⟨"cursor"⟩ {} caseChain [.step, .step, .restart, .step]
      rewindScenario_serves caseChain_placed (by decide),
    keys_accepted_once.2 Solana.Client.sampleClient lostScenario ⟨"cursor"⟩ {}
      Solana.Client.sampleLedger (fun _ => caseTransaction) [.step, .step, .restart, .step]
      Solana.Client.sampleLedger_grows lostScenario_serves lostScenario_fixed (by decide),
    by decide +kernel⟩

end Samples

end ChainIndexer
