import ChainIndexer.Network
import ChainIndexer.Proofs.Validity
import ChainIndexer.Job

/-!
Well-formed payloads. What a receiver may rely on, whatever a node answers: the record of a payload
is of the family of its event and within its bounds, the network is the one of the client, and the
event has the transaction of the job, for a log also its place in the chain (`Payload.Fits`). This
module says what is meant; the decoders of the two ledgers are shown to give nothing else each in a
module of its own.
-/

namespace ChainIndexer

open Push

/-- A job that gives an event its transaction, and a log also the position and the block. A position
and a block of an event are natural numbers, so a log with a negative number has no event. -/
def Job.GivesPlace : Job → Event → Prop
  | .log j, e =>
    j.txHash = .ok e.txHash ∧ (∃ index, j.logIndex = .ok index ∧ index.toInt = e.txIndex) ∧
      ∃ block, j.blockNumber = .ok block ∧ block.toInt = e.block
  | .transaction j, e => Schema.text j.signature = .ok e.txHash

/-- A valid record of a family that is proper in a sense of its ledger. -/
def Push.Data.ProperOf (proper : Data → Prop) (f : Family) (d : Data) : Prop :=
  d.family = f ∧ d.Valid ∧ proper d

/-- A payload for a job on a network whose record is proper in a sense of its ledger. -/
structure Push.Payload.Fits (network : Network) (proper : Data → Prop) (j : Job) (p : Payload) :
    Prop where
  family : p.event.name.family? = some p.data.family
  network_eq : p.network = network.word
  place : j.GivesPlace p.event
  valid : p.Valid
  proper : proper p.data

/-- Payloads of one job: each fits the job, and no two have the same key. -/
structure Push.AllFit (network : Network) (proper : Data → Prop) (j : Job)
    (payloads : List Payload) : Prop where
  fits : ∀ p ∈ payloads, p.Fits network proper j
  nodup : (payloads.map Payload.dedupeKey).Nodup

end ChainIndexer
