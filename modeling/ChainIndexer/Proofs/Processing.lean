import ChainIndexer.Client
import ChainIndexer.Proofs.Evm.WellFormed
import ChainIndexer.Proofs.Solana.Decoding
import ChainIndexer.Proofs.Solana.WellFormed

/-!
Every payload of a client is well formed, whatever its node answers. The guarantee is one for both
kinds of ledger (`process_wellFormed`): a payload fits its job and the network of the client, its
record is valid and proper for the ledger, and the keys of the payloads of one job differ. The node
may answer each request in any way and remember what it was asked; nothing is assumed of it.
-/

namespace ChainIndexer

open Act Push

namespace Client

/-- What is proper for a record on the ledger of a client. -/
def ProperRecord : Client → Data → Prop
  | .evm _ => Evm.ProperRecord
  | .solana _ => Solana.ProperRecord
  | .unsupported _ => fun _ => False

variable {n : Type → Type} [Monad n] {σ : Type} [Threaded n σ]

/-- Whatever the node answers, each payload of a job fits the job and the network of the client and
has a valid record that is proper for the ledger, and the payloads of the job have different
keys. -/
theorem process_wellFormed (client : Client) (rpc : Rpc n) (j : Job) {s s' : client.Memory × σ}
    {payloads : List Payload}
    (h : Act.exec ((client.adapter rpc).process j) s = (.ok (some payloads), s')) :
    (∀ p ∈ payloads, p.Fits client.network client.ProperRecord j) ∧
      (payloads.map Payload.dedupeKey).Nodup := by
  have hall : AllFit client.network client.ProperRecord j payloads := by
    cases client with
    | evm c => exact Evm.Client.process_returns c rpc j s _ s' h payloads rfl
    | solana c => exact (Solana.Client.process_returns c rpc j).within s _ s' h payloads rfl
    | unsupported network => cases (Act.exec_throw _ s).symm.trans h
  exact ⟨hall.fits, hall.nodup⟩

/-! The transaction that creates a case, of which there is a payload to say this of. -/

open Solana Solana.Client in
theorem caseTransaction_wellFormed :
    ∃ payloads s', payloads ≠ [] ∧
      Act.exec (((Client.solana caseClient).adapter (caseNode .null).rpc).process
        (.transaction ⟨.text "s", .null⟩)) (({} : Backlog), ({} : World)) =
          (.ok (some payloads), s') ∧
      (∀ p ∈ payloads, p.Fits .solana Solana.ProperRecord (.transaction ⟨.text "s", .null⟩)) ∧
      (payloads.map Payload.dedupeKey).Nodup := by
  obtain ⟨payloads, w', hpayloads, hexec⟩ := exists_payloads_of_caseTransaction
  have hrun : Act.exec (((Client.solana caseClient).adapter (caseNode .null).rpc).process
      (.transaction ⟨.text "s", .null⟩)) (({} : Backlog), ({} : World)) =
        (.ok (some payloads), ({} : Backlog), w') :=
    Act.exec_within_eq hexec ({} : Backlog)
  exact ⟨payloads, _, hpayloads, hrun, process_wellFormed (.solana caseClient) _ _ hrun⟩

end Client

end ChainIndexer
