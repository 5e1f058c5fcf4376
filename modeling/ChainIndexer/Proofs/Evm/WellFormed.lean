import ChainIndexer.Evm.Client
import ChainIndexer.Proofs.WellFormed

/-!
The payloads of a log are well formed, whatever the node answers. The state of the contract enters a
record only through the reader of contract values, whose numbers and addresses have the size of
their types, and through the numbers of the vocabularies; what remains is checked when the record is
made. So every reader of a record returns a proper record of its family (`recordOf_returns`), and a
log has one payload at most (`processLog_returns`).
-/

namespace ChainIndexer.Evm

open Act Abi Push

/-- The text of an address: `0x` and 40 hexadecimal digits in lower case. -/
def IsAddressText (s : String) : Prop :=
  ∃ digits : List Char, s.toList = '0' :: 'x' :: digits ∧ digits.length = 40 ∧
    ∀ c ∈ digits, ('0' ≤ c ∧ c ≤ '9') ∨ ('a' ≤ c ∧ c ≤ 'f')

/-- A record as the contract can have it: its address is one, and the identifier of an asset is the
numeral of a word. -/
def ProperRecord : Data → Prop
  | .reporter r => IsAddressText r.account
  | .case _ => True
  | .address a => IsAddressText a.address
  | .asset a => IsAddressText a.address ∧ ∃ id < 2 ^ 256, a.assetId = Numeral.natural id

theorem isAddressText_addressText {bs : Bytes} (h : bs.length = 20) :
    IsAddressText (addressText bs) := by
  have hhex : ∀ d < 16, ('0' ≤ Text.hexChar d ∧ Text.hexChar d ≤ '9') ∨
      ('a' ≤ Text.hexChar d ∧ Text.hexChar d ≤ 'f') := by decide
  refine ⟨bs.flatMap Hex.digitsOf, by simp [addressText, Hex.write], ?_, fun c hc => ?_⟩
  · have htwo : (bs.map fun b => (Hex.digitsOf b).length) = bs.map fun _ => 2 := rfl
    rw [List.length_flatMap, htwo]
    simp [h]
  · obtain ⟨b, -, hb⟩ := List.mem_flatMap.mp hc
    have hlt : b.toNat < 256 := b.toNat_lt
    rw [Hex.digitsOf, List.mem_cons, List.mem_singleton] at hb
    rcases hb with rfl | rfl
    · exact hhex _ (by omega)
    · exact hhex _ (by omega)

namespace Client

variable {n : Type → Type} [Monad n] {σ : Type} [Threaded n σ]

theorem reporterOf_returns (c : Client) (rpc : Rpc n) (log : Value) (block : Whole) :
    Returns (Data.ProperOf ProperRecord .reporter) (c.reporterOf rpc log block) := by
  unfold reporterOf
  refine .after fun topic => .after fun id => .after fun ⟨account, role, rest⟩ => ?_
  dsimp only
  split
  · rename_i hid
    refine .after fun state => .after fun role => .after fun status => .lift fun d hd => ?_
    obtain rfl := Except.ok.inj ((make_reporter hid _ _ _ _ _ _ _).symm.trans hd)
    exact ⟨rfl, Nat.le_pred_of_lt hid, isAddressText_addressText account.property⟩
  · exact .throw _

theorem caseOf_returns (c : Client) (rpc : Rpc n) (log : Value) (block : Whole) :
    Returns (Data.ProperOf ProperRecord .case) (c.caseOf rpc log block) := by
  unfold caseOf
  refine .after fun topic => .after fun id => ?_
  split
  · rename_i hid
    refine .after fun ⟨_, name, reporter, status, url, _⟩ => .after fun status =>
      .lift fun d hd => ?_
    have hreporter : reporter.val < 2 ^ 128 := reporter.isLt
    obtain rfl := Except.ok.inj ((make_case hid hreporter _ _ _).symm.trans hd)
    exact ⟨rfl, ⟨Nat.le_pred_of_lt hid, Nat.le_pred_of_lt hreporter⟩, trivial⟩
  · exact .throw _

theorem addressOf_returns (c : Client) (rpc : Rpc n) (log : Value) (block : Whole) :
    Returns (Data.ProperOf ProperRecord .address) (c.addressOf rpc log block) := by
  unfold addressOf
  refine .after fun topic => .after fun address => .after fun ⟨risk, category, rest⟩ => ?_
  dsimp only
  split
  · rename_i haddress
    refine .after fun ⟨_, caseId, reporter, confirmations, _⟩ => .after fun category =>
      .lift fun d hd => ?_
    have hcase : caseId.val < 2 ^ 128 := caseId.isLt
    have hreporter : reporter.val < 2 ^ 128 := reporter.isLt
    obtain ⟨hrisk, rfl⟩ := ite_ok ((make_address hcase hreporter _ _ _ _).symm.trans hd)
    exact ⟨rfl, ⟨Nat.le_pred_of_lt hcase, Nat.le_pred_of_lt hreporter, Nat.not_lt.mp hrisk⟩,
      isAddressText_addressText haddress⟩
  · exact .throw _

theorem assetOf_returns (c : Client) (rpc : Rpc n) (log : Value) (block : Whole) :
    Returns (Data.ProperOf ProperRecord .asset) (c.assetOf rpc log block) := by
  unfold assetOf
  refine .after fun topic => .after fun address => .after fun ⟨asset, risk, category, rest⟩ => ?_
  dsimp only
  split
  · rename_i haddress
    refine .after fun ⟨_, _, caseId, reporter, confirmations, _⟩ => .after fun category =>
      .lift fun d hd => ?_
    have hcase : caseId.val < 2 ^ 128 := caseId.isLt
    have hreporter : reporter.val < 2 ^ 128 := reporter.isLt
    obtain ⟨hrisk, rfl⟩ := ite_ok ((make_asset hcase hreporter _ _ _ _ _).symm.trans hd)
    exact ⟨rfl, ⟨Nat.le_pred_of_lt hcase, Nat.le_pred_of_lt hreporter, Nat.not_lt.mp hrisk⟩,
      isAddressText_addressText haddress, asset.val, asset.isLt, rfl⟩
  · exact .throw _

theorem recordOf_returns (c : Client) (rpc : Rpc n) (f : Family) (log : Value) (block : Whole) :
    Returns (Data.ProperOf ProperRecord f) (c.recordOf rpc f log block) := by
  cases f with
  | reporter => exact reporterOf_returns c rpc log block
  | case => exact caseOf_returns c rpc log block
  | address => exact addressOf_returns c rpc log block
  | asset => exact assetOf_returns c rpc log block

theorem payloadOf_returns (c : Client) (rpc : Rpc n) (j : LogJob) {e : EventName} {f : Family}
    (hf : e.family? = some f) {block : Whole} (hblock : j.blockNumber = .ok block) :
    Returns (fun p => p.Fits c.network ProperRecord (.log j)) (c.payloadOf rpc j e f block) := by
  unfold payloadOf
  refine .bind (.within (recordOf_returns c rpc f j.log block)) fun data hdata => ?_
  refine .bind (.liftFault fun _ h => h) fun tx htx => ?_
  refine .bind (.liftFault fun _ h => h) fun index hindex => ?_
  refine .after fun stamp => .bind (.lift fun _ h => h) fun event hevent => .pure ?_
  obtain ⟨hfamily, hvalid, hproper⟩ := hdata
  obtain ⟨-, htext, hposition, hnumber⟩ := Event.make_parts hevent
  obtain rfl : tx = event.txHash := Except.ok.inj htext
  refine ⟨?_, rfl, ⟨htx, ⟨index, hindex, natural_ofWhole hposition⟩,
    block, hblock, natural_ofWhole hnumber⟩, hvalid, hproper⟩
  rw [Event.name_of_make hevent, hf, hfamily]

/-- A log has one payload at most, and that fits. -/
theorem processLog_returns (c : Client) (rpc : Rpc n) (j : LogJob) :
    Returns (fun payloads? => ∀ payloads ∈ payloads?,
      AllFit c.network ProperRecord (.log j) payloads) (c.processLog rpc j) := by
  unfold processLog
  refine .after fun e? => ?_
  split
  · exact .pure (by simp)
  split
  · exact .pure (by simp)
  · rename_i e f hf
    refine .bind (.liftFault fun _ h => h) fun block hblock => .after fun tx => ?_
    refine .bind (.rewording (payloadOf_returns c rpc j hf hblock) _ _) fun p hp => .pure ?_
    rintro payloads ⟨⟩
    exact ⟨by simpa using hp, by simp⟩

/-- The payloads of a job fit; a job that is no log has none. -/
theorem process_returns (c : Client) (rpc : Rpc n) (j : Job) :
    Returns (fun payloads? => ∀ payloads ∈ payloads?, AllFit c.network ProperRecord j payloads)
      (c.process rpc j) := by
  cases j with
  | log j => exact processLog_returns c rpc j
  | transaction j => exact .throw _

end Client

end ChainIndexer.Evm
