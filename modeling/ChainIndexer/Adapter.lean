import ChainIndexer.Effects
import ChainIndexer.Job
import ChainIndexer.Push.Payload

/-!
What every kind of ledger offers to the loop: the page of jobs after a cursor together with the
cursor that resumes behind it, and the payloads of a job, none if its event is not mapped.
-/

namespace ChainIndexer

/-- Access to a ledger. -/
structure Adapter (n : Type → Type) where
  fetch : Cursor → Act n (List Job × Cursor)
  process : Job → Act n (Option (List Push.Payload))

end ChainIndexer
