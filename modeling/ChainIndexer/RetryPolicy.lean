import ChainIndexer.Fault
import ChainIndexer.Number.Amount

/-!
How long the loop waits after failures in a row: the delay grows by a factor with each of them, up
to a bound.
-/

namespace ChainIndexer

/-- The delay after a first failure, the factor for each further one, and the greatest delay. -/
structure RetryPolicy where
  initialDelay : Amount := .real 1
  factor : Amount := .real 2
  maxDelay : Amount := .real 60
  deriving DecidableEq, Repr

namespace RetryPolicy

/-- The delay after a number of failures in a row, `none` if it is out of range. -/
def delay? (p : RetryPolicy) (failures : Int) : Option Amount :=
  if failures ≤ 0 then some (.real 0)
  else do
    let growth ← p.factor.pow? (failures - 1).toNat
    let delay ← p.initialDelay.mul? growth
    return p.maxDelay.least delay

/-- The delay after a number of failures in a row. -/
def delay (p : RetryPolicy) (failures : Int) : Except Fault Amount :=
  match p.delay? failures with
  | some d => .ok d
  | none => .error .overflow

end RetryPolicy

end ChainIndexer
