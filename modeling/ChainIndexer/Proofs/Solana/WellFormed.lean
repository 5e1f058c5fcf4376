import ChainIndexer.Proofs.Solana.Account
import ChainIndexer.Proofs.WellFormed
import ChainIndexer.Solana.Client

/-!
The payloads of a transaction are well formed, whatever the node answers. A record is the record of
an account of its family, whose fields have their sizes (`recordOf_returns`). The instructions are
numbered one after the other and each has one payload at most, so the positions of the payloads of a
transaction increase (`payloadsOf_returns`).
-/

namespace ChainIndexer.Solana

open Act Push

/-- A record as an account of the program can have it: the account of a reporter is the base-58 text
of a key. -/
def ProperRecord : Data → Prop
  | .reporter r => ∃ key : Bytes, key.length = 32 ∧ r.account = Base58.write key
  | _ => True

theorem Contents.proper {f : Family} (a : Contents f) : Data.ProperOf ProperRecord f a.record := by
  have hid : ∀ id : Fin (256 ^ 16), id.val ≤ maxId := fun id => Nat.le_pred_of_lt id.isLt
  cases f with
  | reporter => exact ⟨rfl, hid a.id, a.account.val, a.account.property, rfl⟩
  | case => exact ⟨rfl, ⟨hid a.id, hid a.reporter⟩, trivial⟩
  | address =>
    exact ⟨rfl, ⟨hid a.caseId, hid a.reporter, Nat.le_of_lt_succ a.risk.isLt⟩, trivial⟩
  | asset =>
    exact ⟨rfl, ⟨hid a.caseId, hid a.reporter, Nat.le_of_lt_succ a.risk.isLt⟩, trivial⟩

namespace Client

variable {n : Type → Type} [Monad n] {σ : Type} [Threaded n σ]

theorem recordOf_returns (c : Client) (rpc : Rpc n) (e : EventName) (f : Family)
    (accounts : List Value) :
    Returns (Data.ProperOf ProperRecord f) (c.recordOf rpc e f accounts) := by
  unfold recordOf
  dsimp only
  split
  · exact .throw _
  · refine .after fun data => .lift fun d hd => ?_
    obtain ⟨a, -, rfl⟩ := recordOfAccount_ok_iff.mp hd
    exact a.proper

/-- An instruction has one payload at most, which fits and has the position of the instruction. -/
theorem payloadOf?_returns (c : Client) (rpc : Rpc n) (j : TransactionJob) (keys : List Value)
    (slot time : Value) (position : Nat) (ix : Value) :
    Returns (fun p? => ∀ p ∈ p?, p.Fits c.network ProperRecord (.transaction j) ∧
      p.event.txIndex = position) (c.payloadOf? rpc j keys slot time position ix) := by
  unfold payloadOf?
  refine .after fun own => ?_
  split
  · exact .pure (by simp)
  refine .after fun found => ?_
  split
  · exact .pure (by simp)
  split
  · exact .pure (by simp)
  · rename_i e accounts _ f hf
    refine .bind (recordOf_returns c rpc e f accounts) fun data hdata => ?_
    refine .bind (.lift fun _ h => h) fun event hevent => .pure ?_
    rintro p ⟨⟩
    obtain ⟨hfamily, hvalid, hproper⟩ := hdata
    obtain ⟨-, htext, hposition, -⟩ := Event.make_parts hevent
    refine ⟨⟨?_, rfl, htext, hvalid, hproper⟩, ?_⟩
    · rw [Event.name_of_make hevent, hf, hfamily]
    · exact (Except.ok.inj ((Schema.natural_int position).symm.trans hposition)).symm

/-- The positions of payloads increase from some position on. -/
def IncreaseFrom (position : Nat) (payloads : List Payload) : Prop :=
  (∀ p ∈ payloads, position ≤ p.event.txIndex) ∧
    (payloads.map (·.event.txIndex)).Pairwise (· < ·)

theorem payloadsOf_returns (c : Client) (rpc : Rpc n) (j : TransactionJob) (keys : List Value)
    (slot time : Value) (position : Nat) (instructions : List Value) :
    Returns (fun payloads =>
      (∀ p ∈ payloads, p.Fits c.network ProperRecord (.transaction j)) ∧
        IncreaseFrom position payloads)
      (c.payloadsOf rpc j keys slot time position instructions) := by
  induction instructions generalizing position with
  | nil => exact .pure (by simp [IncreaseFrom])
  | cons ix rest ih =>
    unfold payloadsOf
    refine .bind (.rewording (payloadOf?_returns c rpc j keys slot time position ix) _ _) ?_
    intro p? hp?
    refine .bind (ih (position + 1)) fun payloads ⟨hfits, hlater, hincrease⟩ => .pure ?_
    cases p? with
    | none => exact ⟨hfits, fun p hp => Nat.le_of_succ_le (hlater p hp), hincrease⟩
    | some p =>
      obtain ⟨hp, rfl⟩ := hp? p rfl
      refine ⟨List.forall_mem_cons.mpr ⟨hp, hfits⟩, ?_, ?_⟩
      · exact List.forall_mem_cons.mpr
          ⟨Nat.le_refl _, fun q hq => Nat.le_of_succ_le (hlater q hq)⟩
      · refine List.pairwise_cons.mpr ⟨fun i hi => ?_, hincrease⟩
        obtain ⟨q, hq, rfl⟩ := List.mem_map.mp hi
        exact hlater q hq

/-- Payloads of one transaction whose positions increase have different keys. -/
theorem nodup_keys_of_increase {network : Network} {proper : Data → Prop} {j : TransactionJob}
    {payloads : List Payload} (hfits : ∀ p ∈ payloads, p.Fits network proper (.transaction j))
    {position : Nat} (hincrease : IncreaseFrom position payloads) :
    (payloads.map Payload.dedupeKey).Nodup := by
  have hdistinct : payloads.Pairwise fun p q => p.event.txIndex ≠ q.event.txIndex :=
    (List.pairwise_map.mp hincrease.2).imp Nat.ne_of_lt
  refine List.pairwise_map.mpr (hdistinct.imp_of_mem fun hp hq hne hkey => hne ?_)
  have hnetwork := (hfits _ hp).network_eq.trans (hfits _ hq).network_eq.symm
  rw [Payload.dedupeKey_eq, Payload.dedupeKey_eq, hnetwork] at hkey
  exact (Payload.keyOf_inj hkey).2

theorem processTransaction_returns (c : Client) (rpc : Rpc n) (j : TransactionJob) :
    Returns (fun payloads? => ∀ payloads ∈ payloads?,
      AllFit c.network ProperRecord (.transaction j) payloads) (c.processTransaction rpc j) := by
  unfold processTransaction
  refine .after fun tx => .after fun details => .after fun err => ?_
  dsimp only
  split
  · exact .pure (by simp)
  refine .after fun message => .after fun slot => .after fun time => .after fun instructions => ?_
  refine .bind (payloadsOf_returns c rpc j _ _ _ _ _) fun payloads ⟨hfits, hincrease⟩ => .pure ?_
  split
  · simp
  · rintro _ ⟨⟩
    exact ⟨hfits, nodup_keys_of_increase hfits hincrease⟩

/-- The payloads of a job fit; a job that is no transaction has none. -/
theorem process_returns (c : Client) (rpc : Rpc n) (j : Job) :
    Returns (fun payloads? => ∀ payloads ∈ payloads?, AllFit c.network ProperRecord j payloads)
      (c.process rpc j) := by
  cases j with
  | log j => exact .throw _
  | transaction j => exact processTransaction_returns c rpc j

end Client

end ChainIndexer.Solana
