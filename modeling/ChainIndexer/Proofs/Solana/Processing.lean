import ChainIndexer.Proofs.Step
import ChainIndexer.Solana.Client

/-!
What the client of transactions does to a world around it. It asks its node and uses its backlog, and
all else is put together from this, so each of its activities belongs to every closed class to which
the requests belong that it makes (`process_closed`, `fetch_closed`). The processing of a transaction
has no part in the backlog.
-/

namespace ChainIndexer.Solana

open Act

namespace Client

section Classes

variable {n : Type → Type} [Monad n] {P : (α : Type) → Act n α → Prop}
  {Q : (α : Type) → Act (StateT Backlog n) α → Prop} {rpc : Rpc n}

/-! ### Processing a transaction -/

theorem fetchTransaction_closed (hP : Closed P)
    (htransaction : ∀ params, P Value (rpc "getTransaction" params)) (signature : Value) :
    P _ (fetchTransaction rpc signature) := by
  unfold fetchTransaction
  exact hP.bind (htransaction _) fun answer => hP.check (hP.pure _)

theorem fetchAccount_closed (hP : Closed P)
    (haccount : ∀ params, P Value (rpc "getAccountInfo" params)) (c : Client) (key : Value) :
    P _ (c.fetchAccount rpc key) := by
  unfold fetchAccount
  refine hP.bind (haccount _) fun answer => hP.bind (hP.liftFault _) fun account => ?_
  refine hP.check (hP.bind (hP.liftFault _) fun owner => hP.check ?_)
  split
  · exact hP.pure _
  · exact hP.throw _

theorem recordOf_closed (hP : Closed P)
    (haccount : ∀ params, P Value (rpc "getAccountInfo" params)) (c : Client)
    (e : Push.EventName) (f : Push.Family) (accounts : List Value) :
    P _ (c.recordOf rpc e f accounts) := by
  unfold recordOf
  dsimp only
  split
  · exact hP.throw _
  · exact hP.bind (fetchAccount_closed hP haccount c _) fun data => hP.lift _

theorem payloadOf?_closed (hP : Closed P)
    (haccount : ∀ params, P Value (rpc "getAccountInfo" params)) (c : Client)
    (j : TransactionJob) (keys : List Value) (slot time : Value) (position : Nat) (ix : Value) :
    P _ (c.payloadOf? rpc j keys slot time position ix) := by
  unfold payloadOf?
  refine hP.bind (hP.liftFault _) fun own => ?_
  split
  · exact hP.pure _
  refine hP.bind (hP.lift _) fun e? => ?_
  split
  · exact hP.pure _
  split
  · exact hP.pure _
  · refine hP.bind (recordOf_closed hP haccount c _ _ _) fun data => ?_
    exact hP.bind (hP.lift _) fun event => hP.pure _

/-- What does not say that an instruction cannot be decoded is handed on. -/
theorem isUndecoded_passes (position : Nat) (signature : Value) :
    Passes isUndecoded (.instructionUndecoded position signature) :=
  ⟨rfl, rfl, rfl, fun _ => rfl⟩

theorem isNoMessage_passes (signature : Value) :
    Passes isNoMessage fun _ => .noMessage signature :=
  ⟨rfl, rfl, rfl, fun _ => rfl⟩

theorem payloadsOf_closed (hP : Closed P)
    (haccount : ∀ params, P Value (rpc "getAccountInfo" params)) (c : Client)
    (j : TransactionJob) (keys : List Value) (slot time : Value) (position : Nat)
    (instructions : List Value) :
    P _ (c.payloadsOf rpc j keys slot time position instructions) := by
  induction instructions generalizing position with
  | nil => exact hP.pure _
  | cons ix rest ih =>
    refine hP.bind (hP.rewording (isUndecoded_passes _ _) ?_) fun payload? => ?_
    · exact payloadOf?_closed hP haccount c j keys slot time position ix
    · exact hP.bind (ih (position + 1)) fun payloads => hP.pure _

theorem processTransaction_closed (hP : Closed P)
    (htransaction : ∀ params, P Value (rpc "getTransaction" params))
    (haccount : ∀ params, P Value (rpc "getAccountInfo" params)) (c : Client)
    (j : TransactionJob) : P _ (c.processTransaction rpc j) := by
  unfold processTransaction
  refine hP.bind (fetchTransaction_closed hP htransaction _) fun tx => ?_
  refine hP.bind (hP.liftFault _) fun details => hP.bind (hP.liftFault _) fun err => ?_
  dsimp only
  split
  · exact hP.pure _
  refine hP.bind (hP.rewording (isNoMessage_passes _) (hP.liftFault _)) fun message => ?_
  refine hP.bind (hP.liftFault _) fun slot => hP.bind (hP.liftFault _) fun time => ?_
  refine hP.bind (hP.liftFault _) fun instructions => ?_
  exact hP.bind (payloadsOf_closed hP haccount c j _ _ _ _ _) fun payloads => hP.pure _

theorem process_closed (hP : Closed P)
    (htransaction : ∀ params, P Value (rpc "getTransaction" params))
    (haccount : ∀ params, P Value (rpc "getAccountInfo" params)) (c : Client) (j : Job) :
    P _ (c.process rpc j) := by
  cases j with
  | log j => exact hP.throw _
  | transaction j => exact processTransaction_closed hP htransaction haccount c j

/-! ### Fetching a page -/

theorem fetchSignatures_closed (hP : Closed P)
    (hlist : ∀ params, P Value (rpc "getSignaturesForAddress" params)) (c : Client)
    (newer : Option String) (older : Value) : P _ (c.fetchSignatures rpc newer older) := by
  refine hP.bind (hlist _) fun answer => ?_
  split
  · exact hP.pure _
  · exact hP.throw _

theorem walkFrom_closed (hP : Closed P)
    (hlist : ∀ params, P Value (rpc "getSignaturesForAddress" params)) (c : Client)
    (newer : Option String) (patience : Nat) (older : Value) (found : List Entry) :
    P _ (c.walkFrom rpc newer patience older found) := by
  induction patience generalizing older found with
  | zero => exact hP.throw _
  | succ patience ih =>
    refine hP.bind (fetchSignatures_closed hP hlist c newer older) fun batch => ?_
    refine hP.bind (hP.liftFault _) fun entries => hP.ite (hP.pure _) ?_
    split
    · exact ih _ _
    · exact hP.pure _

theorem takePage_closed (hP : Closed P) (hQ : ClosedBeside P Q)
    (hlist : ∀ params, P Value (rpc "getSignaturesForAddress" params)) (c : Client)
    (cursor : Cursor) : Q _ (c.takePage rpc cursor) := by
  refine hQ.bind (hQ.lift _) fun newer => hQ.bind (hQ.bind hQ.memory fun backlog => ?_) ?_
  · split
    · exact hQ.pure _
    · refine hQ.bind (hQ.within (walkFrom_closed hP hlist c newer _ _ _)) fun entries => ?_
      exact hQ.bind (hQ.remember _) fun _ => hQ.pure _
  · intro entries
    dsimp only
    split
    · exact hQ.pure _
    · exact hQ.bind (hQ.remember _) fun _ => hQ.bind (hQ.lift _) fun _ => hQ.pure _

theorem fetch_closed (hP : Closed P) (hQ : ClosedBeside P Q)
    (hlist : ∀ params, P Value (rpc "getSignaturesForAddress" params)) (c : Client)
    (cursor : Cursor) : Q _ ((c.adapter rpc).fetch cursor) :=
  hQ.bind (hQ.bind (takePage_closed hP hQ hlist c cursor) fun _ => hQ.pure _) fun _ => hQ.pure _

end Classes

/-! ### In a world -/

theorem rpc_keeps (sc : Scenario) (method : String) (params : List Value) :
    Keeps (World.Tells IsRequest) (sc.rpc method params) :=
  sc.rpc_keeps fun _ => trivial

/-- The processing of a job asks the node, does nothing else, and leaves the backlog. -/
theorem process_keeps (sc : Scenario) (c : Client) (j : Job) :
    Keeps (Beside (fun s s' => s' = s) (World.Tells IsRequest))
      (Act.within (c.process sc.rpc j) :
        Act (StateT Backlog (StateM World)) (Option (List Push.Payload))) :=
  Keeps.within (process_closed (Keeps.closed _) (rpc_keeps sc _) (rpc_keeps sc _) c j)

theorem walkFrom_keeps (sc : Scenario) (c : Client) (newer : Option String) (patience : Nat)
    (older : Value) (found : List Entry) :
    Keeps (World.Tells IsRequest) (c.walkFrom sc.rpc newer patience older found) :=
  walkFrom_closed (Keeps.closed _) (rpc_keeps sc _) c newer patience older found

/-- Fetching a page does nothing but ask the node, however it ends. -/
theorem fetch_keeps (sc : Scenario) (c : Client) (cursor : Cursor) :
    Keeps (Beside (fun _ _ => True) (World.Tells IsRequest)) ((c.adapter sc.rpc).fetch cursor) :=
  fetch_closed (Keeps.closed _) Keeps.closedBeside (rpc_keeps sc _) c cursor

end Client

end ChainIndexer.Solana
