import ChainIndexer.Number.Amount

/-!
Resume positions. A cursor says up to where a ledger has been consumed: nothing yet, every block
below a height, or every transaction up to a signature. `regresses` is the order that a store of
cursors keeps.
-/

namespace ChainIndexer

/-- A resume position. -/
inductive Cursor where
  /-- Nothing has been consumed. -/
  | start
  /-- Every block below the height has been consumed. -/
  | block (height : Whole) (nonneg : 0 ≤ height.toInt)
  /-- Every transaction up to the signature has been consumed. -/
  | transaction (signature : String) (nonempty : signature ≠ "")
  deriving DecidableEq, Repr

namespace Cursor

/-- Whether committing `new` after `previous` would move back. Signatures have no order of their
own, so only a lower height, a return to the start and a change of kind count. -/
def regresses (previous new : Cursor) : Bool :=
  match previous, new with
  | .start, _ => false
  | _, .start => true
  | .block h _, .block k _ => k.toInt < h.toInt
  | .transaction .., .transaction .. => false
  | _, _ => true

@[simp] theorem regresses_start (c : Cursor) : regresses .start c = false := rfl

theorem regresses_self (c : Cursor) : regresses c c = false := by
  cases c <;> simp [regresses]

end Cursor

end ChainIndexer
