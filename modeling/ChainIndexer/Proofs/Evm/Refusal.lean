import ChainIndexer.Proofs.Evm.Page
import ChainIndexer.Proofs.Refusal

/-!
Which failures the client of logs can give. On a position of its own it meets no guard: as the size of
a page is positive and a page is only taken if its first block is not above the head, the range of
blocks that it asks for is a proper one (`fetch_unguarded`), and all jobs that it fetches are logs
(`fetch_own`). The same bounds make every page for which logs were asked move the cursor on
(`fetch_higher`).
-/

namespace ChainIndexer.Evm

open Act Push

/-! ### Reading a log -/

theorem hexBytes_plain (v : Value) : Plain (hexBytes v) := by
  unfold hexBytes
  split
  · split
    · exact Plain.ok _
    · exact Plain.error rfl
  · exact Plain.error rfl

theorem topicAt_plain (log : Value) (i : Nat) : Plain (topicAt log i) := by
  unfold topicAt
  refine Plain.bind (Plain.lift _) fun all => Plain.bind (Plain.lift _) fun count => ?_
  refine Plain.check rfl (Plain.bind (Plain.lift _) fun topic => ?_)
  exact Plain.bind (hexBytes_plain topic) fun bs => Plain.check rfl (Plain.ok _)

theorem topicId_plain (topic : Bytes) : Plain (topicId topic) :=
  Plain.ite (Plain.error rfl) (Plain.ok _)

theorem topicAddress_plain (topic : Bytes) : Plain (topicAddress topic) :=
  Plain.ite (Plain.error rfl) (Plain.ok _)

namespace Client

theorem logBody_plain (log : Value) (types : List Abi.Ty) : Plain (logBody log types) := by
  refine Plain.bind (Plain.lift _) fun data => ?_
  exact Plain.bind (hexBytes_plain data) fun bs => Plain.lift _

theorem eventOf?_plain (j : LogJob) : Plain (eventOf? j) := by
  refine Plain.bind (Plain.lift _) fun all => ?_
  split
  · exact Plain.bind (Plain.lift _) fun tx => Plain.error rfl
  · exact Plain.bind (Plain.lift _) fun first => Plain.ok _

variable {sc : Scenario} {c : Client}

/-! ### Processing a log -/

theorem readState_unguarded (sc : Scenario) (c : Client) (signature : String)
    (types : List Abi.Ty) (args : Abi.Ty.Vals types) (out : Abi.Ty) (block : Whole) :
    FailsAs sc.Unguarded (c.readState sc.rpc signature types args out block) := by
  refine FailsAs.bind (sc.rpc_unguarded _ _) fun answer => ?_
  refine FailsAs.bind (FailsAs.lift (hexBytes_plain answer)) fun bs => ?_
  exact FailsAs.check rfl (FailsAs.liftFault _)

theorem reporterOf_unguarded (sc : Scenario) (c : Client) (log : Value) (block : Whole) :
    FailsAs sc.Unguarded (c.reporterOf sc.rpc log block) := by
  unfold reporterOf
  refine FailsAs.bind (FailsAs.lift (topicAt_plain _ _)) fun topic => ?_
  refine FailsAs.bind (FailsAs.lift (topicId_plain _)) fun id => ?_
  refine FailsAs.bind (FailsAs.lift (logBody_plain _ _)) fun ⟨account, role, rest⟩ => ?_
  dsimp only
  split
  · refine FailsAs.bind (readState_unguarded sc c _ _ _ _ _) fun state => ?_
    refine FailsAs.bind (FailsAs.lift (Vocabulary.ofCodeNumber_plain _)) fun role => ?_
    refine FailsAs.bind (FailsAs.lift (Vocabulary.ofCodeNumber_plain _)) fun status => ?_
    exact FailsAs.lift (Schema.Checked.orFail_plain _ _)
  · exact FailsAs.throw rfl

theorem caseOf_unguarded (sc : Scenario) (c : Client) (log : Value) (block : Whole) :
    FailsAs sc.Unguarded (c.caseOf sc.rpc log block) := by
  unfold caseOf
  refine FailsAs.bind (FailsAs.lift (topicAt_plain _ _)) fun topic => ?_
  refine FailsAs.bind (FailsAs.lift (topicId_plain _)) fun id => ?_
  split
  · refine FailsAs.bind (readState_unguarded sc c _ _ _ _ _) fun state => ?_
    refine FailsAs.bind (FailsAs.lift (Vocabulary.ofCodeNumber_plain _)) fun status => ?_
    exact FailsAs.lift (Schema.Checked.orFail_plain _ _)
  · exact FailsAs.throw rfl

theorem addressOf_unguarded (sc : Scenario) (c : Client) (log : Value) (block : Whole) :
    FailsAs sc.Unguarded (c.addressOf sc.rpc log block) := by
  unfold addressOf
  refine FailsAs.bind (FailsAs.lift (topicAt_plain _ _)) fun topic => ?_
  refine FailsAs.bind (FailsAs.lift (topicAddress_plain _)) fun address => ?_
  refine FailsAs.bind (FailsAs.lift (logBody_plain _ _)) fun ⟨risk, category, rest⟩ => ?_
  dsimp only
  split
  · refine FailsAs.bind (readState_unguarded sc c _ _ _ _ _) fun state => ?_
    refine FailsAs.bind (FailsAs.lift (Vocabulary.ofCodeNumber_plain _)) fun category => ?_
    exact FailsAs.lift (Schema.Checked.orFail_plain _ _)
  · exact FailsAs.throw rfl

theorem assetOf_unguarded (sc : Scenario) (c : Client) (log : Value) (block : Whole) :
    FailsAs sc.Unguarded (c.assetOf sc.rpc log block) := by
  unfold assetOf
  refine FailsAs.bind (FailsAs.lift (topicAt_plain _ _)) fun topic => ?_
  refine FailsAs.bind (FailsAs.lift (topicAddress_plain _)) fun address => ?_
  refine FailsAs.bind (FailsAs.lift (logBody_plain _ _)) fun ⟨asset, risk, category, rest⟩ => ?_
  dsimp only
  split
  · refine FailsAs.bind (readState_unguarded sc c _ _ _ _ _) fun state => ?_
    refine FailsAs.bind (FailsAs.lift (Vocabulary.ofCodeNumber_plain _)) fun category => ?_
    exact FailsAs.lift (Schema.Checked.orFail_plain _ _)
  · exact FailsAs.throw rfl

theorem recordOf_unguarded (sc : Scenario) (c : Client) (f : Family) (log : Value)
    (block : Whole) : FailsAs sc.Unguarded (c.recordOf sc.rpc f log block) := by
  cases f with
  | reporter => exact reporterOf_unguarded sc c log block
  | case => exact caseOf_unguarded sc c log block
  | address => exact addressOf_unguarded sc c log block
  | asset => exact assetOf_unguarded sc c log block

theorem blockTimestamp_unguarded (sc : Scenario) (block : Whole) :
    FailsAs sc.Unguarded (blockTimestamp sc.rpc block) := by
  unfold blockTimestamp
  refine FailsAs.bind FailsAs.memory fun known => ?_
  split
  · exact FailsAs.pure _
  · refine FailsAs.bind (FailsAs.within (sc.rpc_unguarded _ _)) fun answer => ?_
    refine FailsAs.check rfl (FailsAs.bind (FailsAs.liftFault _) fun stamp => ?_)
    refine FailsAs.bind (FailsAs.liftFault _) fun t => ?_
    exact FailsAs.bind (FailsAs.remember _) fun _ => FailsAs.pure _

theorem payloadOf_unguarded (sc : Scenario) (c : Client) (j : LogJob) (e : EventName) (f : Family)
    (block : Whole) : FailsAs sc.Unguarded (c.payloadOf sc.rpc j e f block) := by
  unfold payloadOf
  refine FailsAs.bind (FailsAs.within (recordOf_unguarded sc c f j.log block)) fun data => ?_
  refine FailsAs.bind (FailsAs.liftFault _) fun tx => ?_
  refine FailsAs.bind (FailsAs.liftFault _) fun index => ?_
  refine FailsAs.bind (blockTimestamp_unguarded sc block) fun stamp => ?_
  exact FailsAs.bind (FailsAs.lift (Schema.Checked.orFail_plain _ _)) fun event => FailsAs.pure _

theorem processLog_unguarded (sc : Scenario) (c : Client) (j : LogJob) :
    FailsAs sc.Unguarded (c.processLog sc.rpc j) := by
  unfold processLog
  refine FailsAs.bind (FailsAs.lift (eventOf?_plain j)) fun e? => ?_
  split
  · exact FailsAs.pure _
  split
  · exact FailsAs.pure _
  · refine FailsAs.bind (FailsAs.liftFault _) fun block => ?_
    refine FailsAs.bind (FailsAs.liftFault _) fun tx => ?_
    refine FailsAs.bind (FailsAs.rewording ?_ fun _ => rfl) fun _ => FailsAs.pure _
    exact payloadOf_unguarded sc c j _ _ block

/-! ### Fetching a page -/

/-- The positions of a ledger of blocks. -/
def Owns : Cursor → Prop
  | .start | .block .. => True
  | .transaction .. => False

theorem heightOf_plain {cursor : Cursor} (h : Owns cursor) : Plain (heightOf cursor) := by
  cases cursor with
  | start => exact Plain.ok _
  | block height nonneg => exact Plain.ok _
  | transaction s hs => exact h.elim

theorem heightOf_nonneg {cursor : Cursor} {height : Whole} (h : heightOf cursor = .ok height) :
    0 ≤ height.toInt := by
  cases cursor with
  | start =>
    obtain rfl := Except.ok.inj h
    exact Int.le_refl 0
  | block k nonneg =>
    obtain rfl := Except.ok.inj h
    exact nonneg
  | transaction s hs => cases h

theorem latestBlock_unguarded (sc : Scenario) : FailsAs sc.Unguarded (latestBlock sc.rpc) :=
  FailsAs.bind (sc.rpc_unguarded _ _) fun _ => FailsAs.liftFault _

theorem fetchLogs_unguarded (sc : Scenario) (c : Client) {first last : Int} (hfirst : 0 ≤ first)
    (hle : first ≤ last) : FailsAs sc.Unguarded (c.fetchLogs sc.rpc first last) := by
  have hrange : ¬(first < 0 ∨ last < first) := by omega
  unfold fetchLogs
  rw [if_neg hrange]
  refine FailsAs.bind (sc.rpc_unguarded _ _) fun answer => ?_
  split
  · exact FailsAs.pure _
  · exact FailsAs.throw rfl

theorem fetch_unguarded (sc : Scenario) (hsize : 0 < c.pageSize) {cursor : Cursor}
    (h : Owns cursor) : FailsAs sc.Unguarded ((c.adapter sc.rpc).fetch cursor) := by
  refine FailsAs.bind ?_ fun _ => FailsAs.pure _
  refine FailsAs.lift_bind (heightOf_plain h) fun height hheight => ?_
  have hfirst := heightOf_nonneg hheight
  refine FailsAs.bind (FailsAs.within (latestBlock_unguarded sc)) fun head => ?_
  split
  · exact FailsAs.pure _
  · rename_i hreached
    -- the page has a block at least, and its first block is there
    have hle : height.toInt ≤ min (height.toInt + c.pageSize - 1) head := by omega
    refine FailsAs.bind (FailsAs.within (fetchLogs_unguarded sc c hfirst hle)) fun logs => ?_
    refine FailsAs.bind (FailsAs.liftFault _) fun live => ?_
    refine FailsAs.bind (FailsAs.liftFault _) fun jobs => ?_
    refine FailsAs.bind (FailsAs.remember _) fun _ => ?_
    exact FailsAs.bind (FailsAs.lift (Cursor.ofHeight_plain _)) fun next => FailsAs.pure _

variable {m m' : Timestamps} {w w' : World} {cursor next : Cursor} {jobs : List Job}

/-- A page of a ledger of blocks: its jobs are logs, and the cursor behind it is a position of the
ledger and no step back. -/
theorem fetch_own (hown : Owns cursor)
    (h : Act.exec ((c.adapter sc.rpc).fetch cursor) (m, w) = (.ok (jobs, next), m', w')) :
    Owns next ∧ cursor.regresses next = false ∧ ∀ j ∈ jobs, ∃ log, j = .log log := by
  obtain ⟨first, answer, head, hheight, -, ⟨-, rfl, rfl, -⟩ | hpage⟩ := fetch_ok h
  · exact ⟨hown, Cursor.regresses_self _, by simp⟩
  obtain ⟨last, -, -, -, ordered, nonneg, -, -, hle, -, -, -, rfl, rfl, -⟩ := hpage
  refine ⟨trivial, ?_, by simp⟩
  cases cursor with
  | start => rfl
  | block height hnonneg =>
    obtain rfl := Except.ok.inj hheight
    have hbehind : ¬last + 1 < height.toInt := by omega
    exact decide_eq_false hbehind
  | transaction s hs => exact hown.elim

/-- A page for which logs were asked moves the cursor on to a greater height. -/
theorem fetch_higher {es : List Incident} {params : List Value} {answer : Except Failure Value}
    (h : Act.exec ((c.adapter sc.rpc).fetch cursor) (m, w) = (.ok (jobs, next), m', w'))
    (hes : w'.events = w.events ++ es) (hasked : .asked "eth_getLogs" params answer ∈ es) :
    ∃ height height' nonneg, heightOf cursor = .ok height ∧ next = .block height' nonneg ∧
      height.toInt < height'.toInt := by
  obtain ⟨height, answer, head, hheight, -, ⟨-, -, -, hreach, -⟩ | hpage⟩ := fetch_ok h
  · -- only the head of the chain was asked for
    obtain rfl := List.append_cancel_left (hes.symm.trans hreach.events)
    simp at hasked
  · obtain ⟨last, -, -, -, -, nonneg, -, -, hle, -, -, -, -, rfl, -⟩ := hpage
    exact ⟨height, _, nonneg, hheight, rfl, Int.lt_add_one_of_le hle⟩

end Client

end ChainIndexer.Evm
