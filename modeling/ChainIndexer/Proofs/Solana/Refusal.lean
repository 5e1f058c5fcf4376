import ChainIndexer.Proofs.Solana.Account
import ChainIndexer.Proofs.Solana.Walk

/-!
Which failures the client of transactions can give. On a position of its own it meets no guard
(`fetch_unguarded`), whatever the node lists: all jobs that it fetches are transactions, and the
cursor behind a page is a signature or the cursor that was given (`fetch_own`).
-/

namespace ChainIndexer.Solana

open Act Push

namespace Client

variable {sc : Scenario} {c : Client}

/-! ### Processing a transaction -/

theorem eventOf?_plain (ix : Value) (keys : List Value) : Plain (eventOf? ix keys) := by
  refine Plain.bind (Plain.lift _) fun bs => Plain.check rfl ?_
  split
  · exact Plain.ok _
  · refine Plain.bind (Plain.lift _) fun accounts => Plain.bind (Plain.lift _) fun numbers => ?_
    exact Plain.bind (Plain.lift _) fun accounts => Plain.ok _

theorem fetchTransaction_unguarded (sc : Scenario) (signature : Value) :
    FailsAs sc.Unguarded (fetchTransaction sc.rpc signature) :=
  FailsAs.bind (sc.rpc_unguarded _ _) fun _ => FailsAs.check rfl (FailsAs.pure _)

theorem fetchAccount_unguarded (sc : Scenario) (c : Client) (key : Value) :
    FailsAs sc.Unguarded (c.fetchAccount sc.rpc key) := by
  refine FailsAs.bind (sc.rpc_unguarded _ _) fun answer => ?_
  refine FailsAs.bind (FailsAs.liftFault _) fun account => FailsAs.check rfl ?_
  refine FailsAs.bind (FailsAs.liftFault _) fun owner => FailsAs.check rfl ?_
  split
  · exact FailsAs.pure _
  · exact FailsAs.throw rfl

theorem recordOf_unguarded (sc : Scenario) (c : Client) (e : EventName) (f : Family)
    (accounts : List Value) : FailsAs sc.Unguarded (c.recordOf sc.rpc e f accounts) := by
  unfold recordOf
  dsimp only
  split
  · exact FailsAs.throw rfl
  · refine FailsAs.bind (fetchAccount_unguarded sc c _) fun data => ?_
    exact FailsAs.lift (recordOfAccount_plain f data)

theorem payloadOf?_unguarded (sc : Scenario) (c : Client) (j : TransactionJob) (keys : List Value)
    (slot time : Value) (position : Nat) (ix : Value) :
    FailsAs sc.Unguarded (c.payloadOf? sc.rpc j keys slot time position ix) := by
  unfold payloadOf?
  refine FailsAs.bind (FailsAs.liftFault _) fun own => ?_
  split
  · exact FailsAs.pure _
  refine FailsAs.bind (FailsAs.lift (eventOf?_plain ix keys)) fun e? => ?_
  split
  · exact FailsAs.pure _
  split
  · exact FailsAs.pure _
  · refine FailsAs.bind (recordOf_unguarded sc c _ _ _) fun data => ?_
    exact FailsAs.bind (FailsAs.lift (Schema.Checked.orFail_plain _ _)) fun event => FailsAs.pure _

theorem payloadsOf_unguarded (sc : Scenario) (c : Client) (j : TransactionJob) (keys : List Value)
    (slot time : Value) (position : Nat) (instructions : List Value) :
    FailsAs sc.Unguarded (c.payloadsOf sc.rpc j keys slot time position instructions) := by
  induction instructions generalizing position with
  | nil => exact FailsAs.pure _
  | cons ix rest ih =>
    have hfirst := payloadOf?_unguarded sc c j keys slot time position ix
    refine FailsAs.bind (FailsAs.rewording hfirst fun _ => rfl) fun payload? => ?_
    exact FailsAs.bind (ih (position + 1)) fun payloads => FailsAs.pure _

theorem processTransaction_unguarded (sc : Scenario) (c : Client) (j : TransactionJob) :
    FailsAs sc.Unguarded (c.processTransaction sc.rpc j) := by
  unfold processTransaction
  refine FailsAs.bind (fetchTransaction_unguarded sc _) fun tx => ?_
  refine FailsAs.bind (FailsAs.liftFault _) fun details => ?_
  refine FailsAs.bind (FailsAs.liftFault _) fun err => ?_
  dsimp only
  split
  · exact FailsAs.pure _
  refine FailsAs.bind (FailsAs.rewording (FailsAs.liftFault _) fun _ => rfl) fun message => ?_
  refine FailsAs.bind (FailsAs.liftFault _) fun slot => ?_
  refine FailsAs.bind (FailsAs.liftFault _) fun time => ?_
  refine FailsAs.bind (FailsAs.liftFault _) fun instructions => ?_
  exact FailsAs.bind (payloadsOf_unguarded sc c j _ _ _ _ _) fun payloads => FailsAs.pure _

/-! ### Fetching a page -/

/-- The positions of a ledger of transactions. -/
def Owns : Cursor → Prop
  | .start | .transaction .. => True
  | .block .. => False

theorem signatureOf_plain {cursor : Cursor} (h : Owns cursor) : Plain (signatureOf cursor) := by
  cases cursor with
  | start => exact Plain.ok _
  | transaction s hs => exact Plain.ok _
  | block height nonneg => exact h.elim

theorem fetchSignatures_unguarded (sc : Scenario) (c : Client) (newer : Option String)
    (older : Value) : FailsAs sc.Unguarded (c.fetchSignatures sc.rpc newer older) := by
  refine FailsAs.bind (sc.rpc_unguarded _ _) fun answer => ?_
  split
  · exact FailsAs.pure _
  · exact FailsAs.throw rfl

theorem walkFrom_unguarded (sc : Scenario) (c : Client) (newer : Option String) (patience : Nat)
    (older : Value) (found : List Entry) :
    FailsAs sc.Unguarded (c.walkFrom sc.rpc newer patience older found) := by
  induction patience generalizing older found with
  | zero => exact FailsAs.throw rfl
  | succ patience ih =>
    refine FailsAs.bind (fetchSignatures_unguarded sc c newer older) fun batch => ?_
    refine FailsAs.bind (FailsAs.liftFault _) fun entries => ?_
    refine FailsAs.ite (FailsAs.pure _) ?_
    split
    · exact ih _ _
    · exact FailsAs.pure _

theorem pending_unguarded (sc : Scenario) (c : Client) (newer : Option String) :
    FailsAs sc.Unguarded (c.pending sc.rpc newer) := by
  refine FailsAs.bind FailsAs.memory fun backlog => FailsAs.ite (FailsAs.pure _) ?_
  refine FailsAs.bind (FailsAs.within (walkFrom_unguarded sc c newer _ _ _)) fun entries => ?_
  exact FailsAs.bind (FailsAs.remember _) fun _ => FailsAs.pure _

theorem ofSignatureValue_plain (v : Value) : Plain (Cursor.ofSignatureValue v) := by
  cases v with
  | text s => exact Cursor.ofSignature_plain s
  | _ => exact Plain.error rfl

theorem fetch_unguarded (sc : Scenario) (c : Client) {cursor : Cursor} (h : Owns cursor) :
    FailsAs sc.Unguarded ((c.adapter sc.rpc).fetch cursor) := by
  refine FailsAs.bind (FailsAs.bind ?_ fun _ => FailsAs.pure _) fun _ => FailsAs.pure _
  refine FailsAs.bind (FailsAs.lift (signatureOf_plain h)) fun newer => ?_
  refine FailsAs.bind (pending_unguarded sc c newer) fun entries => ?_
  dsimp only
  split
  · exact FailsAs.pure _
  · refine FailsAs.bind (FailsAs.remember _) fun _ => ?_
    exact FailsAs.bind (FailsAs.lift (ofSignatureValue_plain _)) fun next => FailsAs.pure _

variable {m m' : Backlog} {w w' : World} {cursor next : Cursor} {jobs : List Job}

theorem ofSignatureValue_ok {v : Value} (h : Cursor.ofSignatureValue v = .ok next) :
    ∃ s nonempty, next = .transaction s nonempty := by
  cases v with
  | text s =>
    replace h : Cursor.ofSignature s = .ok next := h
    unfold Cursor.ofSignature at h
    split at h
    · exact ⟨s, _, (Except.ok.inj h).symm⟩
    · cases h
  | _ => cases h

/-- A page of a ledger of transactions: its jobs are transactions, and the cursor behind it is a
position of the ledger and no step back. -/
theorem fetch_own (hown : Owns cursor)
    (h : Act.exec ((c.adapter sc.rpc).fetch cursor) (m, w) = (.ok (jobs, next), m', w')) :
    Owns next ∧ cursor.regresses next = false ∧ ∀ j ∈ jobs, ∃ tx, j = .transaction tx := by
  obtain ⟨⟨txs, next'⟩, s₁, hpage, hjobs⟩ := exec_bind_ok h
  rw [exec_pure] at hjobs
  cases hjobs
  obtain ⟨⟨page, next'⟩, s₂, htake, hpage⟩ := exec_bind_ok hpage
  rw [exec_pure] at hpage
  cases hpage
  suffices hnext : Owns next ∧ cursor.regresses next = false from ⟨hnext.1, hnext.2, by simp⟩
  obtain ⟨newer, s₃, -, hpending⟩ := exec_bind_ok htake
  obtain ⟨entries, s₄, -, hcut⟩ := exec_bind_ok hpending
  dsimp only at hcut
  split at hcut
  · rw [exec_pure] at hcut
    cases hcut
    exact ⟨hown, Cursor.regresses_self _⟩
  · obtain ⟨⟨⟩, s₅, -, hbehind⟩ := exec_bind_ok hcut
    obtain ⟨behind, s₆, hlift, hreturn⟩ := exec_bind_ok hbehind
    obtain ⟨hsignature, rfl⟩ := of_exec_lift hlift
    rw [exec_pure] at hreturn
    cases hreturn
    obtain ⟨s, hs, rfl⟩ := ofSignatureValue_ok hsignature
    refine ⟨trivial, ?_⟩
    cases cursor with
    | start => rfl
    | transaction => rfl
    | block => exact hown.elim

end Client

end ChainIndexer.Solana
