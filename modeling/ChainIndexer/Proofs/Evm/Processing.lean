import ChainIndexer.Evm.Client
import ChainIndexer.Proofs.Step

/-!
What the client of logs does to a world around it. It asks its node and uses its memory, and all else
is put together from this, so each of its activities belongs to every closed class to which the
requests belong that it makes (`process_closed`, `fetch_closed`). For the processing of a log these
are requests for the state of the contract and for the block of the log. In particular it asks for no
logs, so that the ranges of blocks that a step has asked for are those of its page.
-/

namespace ChainIndexer.Evm

open Act

namespace Client

section Classes

variable {n : Type → Type} [Monad n] {P : (α : Type) → Act n α → Prop}
  {Q : (α : Type) → Act (StateT Timestamps n) α → Prop} {rpc : Rpc n}

/-! ### Processing a log -/

theorem readState_closed (hP : Closed P) (hcall : ∀ params, P Value (rpc "eth_call" params))
    (c : Client) (signature : String) (types : List Abi.Ty) (args : Abi.Ty.Vals types)
    (out : Abi.Ty) (block : Whole) : P _ (c.readState rpc signature types args out block) := by
  unfold readState
  exact hP.bind (hcall _) fun answer => hP.bind (hP.lift _) fun bs => hP.check (hP.liftFault _)

theorem reporterOf_closed (hP : Closed P) (hcall : ∀ params, P Value (rpc "eth_call" params))
    (c : Client) (log : Value) (block : Whole) : P _ (c.reporterOf rpc log block) := by
  unfold reporterOf
  refine hP.bind (hP.lift _) fun topic => hP.bind (hP.lift _) fun id => ?_
  refine hP.bind (hP.lift _) fun ⟨account, role, rest⟩ => ?_
  dsimp only
  split
  · refine hP.bind (readState_closed hP hcall c _ _ _ _ _) fun state => ?_
    refine hP.bind (hP.lift _) fun role => hP.bind (hP.lift _) fun status => ?_
    exact hP.lift _
  · exact hP.throw _

theorem caseOf_closed (hP : Closed P) (hcall : ∀ params, P Value (rpc "eth_call" params))
    (c : Client) (log : Value) (block : Whole) : P _ (c.caseOf rpc log block) := by
  unfold caseOf
  refine hP.bind (hP.lift _) fun topic => hP.bind (hP.lift _) fun id => ?_
  split
  · refine hP.bind (readState_closed hP hcall c _ _ _ _ _) fun state => ?_
    exact hP.bind (hP.lift _) fun status => hP.lift _
  · exact hP.throw _

theorem addressOf_closed (hP : Closed P) (hcall : ∀ params, P Value (rpc "eth_call" params))
    (c : Client) (log : Value) (block : Whole) : P _ (c.addressOf rpc log block) := by
  unfold addressOf
  refine hP.bind (hP.lift _) fun topic => hP.bind (hP.lift _) fun address => ?_
  refine hP.bind (hP.lift _) fun ⟨risk, category, rest⟩ => ?_
  dsimp only
  split
  · refine hP.bind (readState_closed hP hcall c _ _ _ _ _) fun state => ?_
    exact hP.bind (hP.lift _) fun category => hP.lift _
  · exact hP.throw _

theorem assetOf_closed (hP : Closed P) (hcall : ∀ params, P Value (rpc "eth_call" params))
    (c : Client) (log : Value) (block : Whole) : P _ (c.assetOf rpc log block) := by
  unfold assetOf
  refine hP.bind (hP.lift _) fun topic => hP.bind (hP.lift _) fun address => ?_
  refine hP.bind (hP.lift _) fun ⟨asset, risk, category, rest⟩ => ?_
  dsimp only
  split
  · refine hP.bind (readState_closed hP hcall c _ _ _ _ _) fun state => ?_
    exact hP.bind (hP.lift _) fun category => hP.lift _
  · exact hP.throw _

theorem recordOf_closed (hP : Closed P) (hcall : ∀ params, P Value (rpc "eth_call" params))
    (c : Client) (f : Push.Family) (log : Value) (block : Whole) :
    P _ (c.recordOf rpc f log block) := by
  cases f with
  | reporter => exact reporterOf_closed hP hcall c log block
  | case => exact caseOf_closed hP hcall c log block
  | address => exact addressOf_closed hP hcall c log block
  | asset => exact assetOf_closed hP hcall c log block

theorem blockTimestamp_closed (hQ : ClosedBeside P Q)
    (hblock : ∀ params, P Value (rpc "eth_getBlockByNumber" params)) (block : Whole) :
    Q _ (blockTimestamp rpc block) := by
  unfold blockTimestamp
  refine hQ.bind hQ.memory fun known => ?_
  split
  · exact hQ.pure _
  · refine hQ.bind (hQ.within (hblock _)) fun answer => ?_
    refine hQ.check (hQ.bind (hQ.liftFault _) fun stamp => ?_)
    exact hQ.bind (hQ.liftFault _) fun t => hQ.bind (hQ.remember _) fun _ => hQ.pure _

/-- What does not say that a log cannot be decoded is handed on. -/
theorem isUndecoded_passes (e : Push.EventName) (tx : String) :
    Passes isUndecoded (.eventUndecoded e tx) :=
  ⟨rfl, rfl, rfl, fun _ => rfl⟩

theorem payloadOf_closed (hQ : Closed Q) {c : Client}
    (hrecord : ∀ f log block, Q _ (Act.within (c.recordOf rpc f log block)))
    (hstamp : ∀ block, Q _ (blockTimestamp rpc block)) (j : LogJob) (e : Push.EventName)
    (f : Push.Family) (block : Whole) : Q _ (c.payloadOf rpc j e f block) := by
  unfold payloadOf
  refine hQ.bind (hrecord f j.log block) fun data => ?_
  refine hQ.bind (hQ.liftFault _) fun tx => hQ.bind (hQ.liftFault _) fun index => ?_
  exact hQ.bind (hstamp block) fun stamp => hQ.bind (hQ.lift _) fun event => hQ.pure _

/-- A closed class to which the readers of records and of timestamps belong. It need not hold all
that uses the memory. -/
theorem process_closed_of (hQ : Closed Q) {c : Client}
    (hrecord : ∀ f log block, Q _ (Act.within (c.recordOf rpc f log block)))
    (hstamp : ∀ block, Q _ (blockTimestamp rpc block)) (j : Job) : Q _ (c.process rpc j) := by
  cases j with
  | transaction j => exact hQ.throw _
  | log j =>
    refine hQ.bind (hQ.lift _) fun e? => ?_
    split
    · exact hQ.pure _
    split
    · exact hQ.pure _
    · refine hQ.bind (hQ.liftFault _) fun block => hQ.bind (hQ.liftFault _) fun tx => ?_
      refine hQ.bind (hQ.rewording (isUndecoded_passes _ _) ?_) fun _ => hQ.pure _
      exact payloadOf_closed hQ hrecord hstamp j _ _ block

theorem process_closed (hP : Closed P) (hQ : ClosedBeside P Q)
    (hcall : ∀ params, P Value (rpc "eth_call" params))
    (hblock : ∀ params, P Value (rpc "eth_getBlockByNumber" params)) (c : Client) (j : Job) :
    Q _ (c.process rpc j) :=
  process_closed_of hQ.toClosed
    (fun f log block => hQ.within (recordOf_closed hP hcall c f log block))
    (blockTimestamp_closed hQ hblock) j

/-! ### Fetching a page -/

theorem fetchLogs_closed (hP : Closed P) (hlogs : ∀ params, P Value (rpc "eth_getLogs" params))
    (c : Client) (first last : Int) : P _ (c.fetchLogs rpc first last) := by
  unfold fetchLogs
  refine hP.check (hP.bind (hlogs _) fun answer => ?_)
  split
  · exact hP.pure _
  · exact hP.throw _

theorem fetch_closed (hP : Closed P) (hQ : ClosedBeside P Q)
    (hhead : ∀ params, P Value (rpc "eth_blockNumber" params))
    (hlogs : ∀ params, P Value (rpc "eth_getLogs" params)) (c : Client) (cursor : Cursor) :
    Q _ ((c.adapter rpc).fetch cursor) := by
  refine hQ.bind ?_ fun _ => hQ.pure _
  refine hQ.bind (hQ.lift _) fun first => ?_
  refine hQ.bind (hQ.within (hP.bind (hhead _) fun _ => hP.liftFault _)) fun head => ?_
  split
  · exact hQ.pure _
  · refine hQ.bind (hQ.within (fetchLogs_closed hP hlogs c _ _)) fun logs => ?_
    refine hQ.bind (hQ.liftFault _) fun live => hQ.bind (hQ.liftFault _) fun jobs => ?_
    exact hQ.bind (hQ.remember _) fun _ => hQ.bind (hQ.lift _) fun _ => hQ.pure _

end Classes

end Client

/-! ### In a world -/

/-- A request for the state of the contract or for a block. -/
def IsLookup : Incident → Prop
  | .asked method _ _ => method = "eth_call" ∨ method = "eth_getBlockByNumber"
  | _ => False

/-- The timestamps that are remembered have no part in what is told. -/
abbrev Forgets (s s' : Timestamps × World) : Prop :=
  Beside (fun _ _ => True) (World.Tells IsLookup) s s'

namespace Client

/-- The processing of a job looks things up and does nothing else. -/
theorem process_keeps (sc : Scenario) (c : Client) (j : Job) :
    Keeps Forgets (c.process sc.rpc j) :=
  process_closed (Keeps.closed _) Keeps.closedBeside (fun _ => sc.rpc_keeps fun _ => Or.inl rfl)
    (fun _ => sc.rpc_keeps fun _ => Or.inr rfl) c j

/-- Fetching a page does nothing but ask the node, however it ends. -/
theorem fetch_keeps (sc : Scenario) (c : Client) (cursor : Cursor) :
    Keeps (Beside (fun _ _ => True) (World.Tells IsRequest)) ((c.adapter sc.rpc).fetch cursor) :=
  fetch_closed (Keeps.closed _) Keeps.closedBeside (fun _ => sc.rpc_keeps fun _ => trivial)
    (fun _ => sc.rpc_keeps fun _ => trivial) c cursor

end Client

end ChainIndexer.Evm
