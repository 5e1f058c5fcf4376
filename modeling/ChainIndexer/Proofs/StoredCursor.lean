import ChainIndexer.Checkpoint
import ChainIndexer.Proofs.JsonValue

/-!
A stored cursor is read as the cursor that was stored. The text that a checkpoint writes for a
cursor is an object in an object, which the reader takes back whatever the signature or the height
in it is. Only the kind of a height is settled on the way: a truth value becomes the number it
stands for. A height of too many digits is not written at all (`writable_of_write`), so
`ofBytes_encode` speaks of the text that was written.
-/

namespace ChainIndexer

namespace Cursor

/-- A cursor as it is read once it has been stored. -/
def settled : Cursor → Cursor
  | .start => .start
  | .block h nonneg => .block (.number h.toInt) nonneg
  | .transaction s nonempty => .transaction s nonempty

/-- Whether the height of a cursor, if it has one, is short enough to be written. -/
def isWritable : Cursor → Bool
  | .block h _ => Numeral.isWritable h.toInt
  | _ => true

end Cursor

namespace Checkpoint

open Json

/-- What is in a checkpoint file that holds a cursor. -/
def document (c : Cursor) : Value :=
  .object [("cursor", c.toValue)]

theorem tellable_ofWhole {w : Whole} (hw : Numeral.isWritable w.toInt = true) (depth : Nat) :
    Tellable depth (.ofWhole w) := by
  cases w with
  | number n => exact .int hw
  | flag b => exact .bool b

/-- The document of a cursor with a writable height is told from any other. -/
theorem tellable_document {c : Cursor} (hc : c.isWritable = true) (depth : Nat) :
    Tellable (depth + 2) (document c) := by
  have hcursor : Tellable (depth + 1) c.toValue := by
    cases c with
    | start => exact .object (by simp) (by simp)
    | block h nonneg => exact .object (by simp) (by simpa using tellable_ofWhole hc depth)
    | transaction s nonempty => exact .object (by simp) (by simp)
  exact .object (by simp) (by simpa using hcursor)

/-- A height of too many digits is not written. -/
theorem writable_of_write {c : Cursor} {s : String} (h : Json.write (document c) = .ok s) :
    c.isWritable = true := by
  cases c with
  | start => rfl
  | transaction t nonempty => rfl
  | block height nonneg =>
    cases height with
    | flag b => exact Numeral.isWritable_of_lt (by cases b <;> decide)
    | number n =>
      change Numeral.isWritable n = true
      by_contra hlong
      simp [document, Cursor.toValue, Value.ofWhole, Json.write, pieces, fieldPieces, together,
        Except.map, hlong] at h

/-- A document is read as its cursor. -/
theorem cursorOf_document (c : Cursor) : cursorOf (document c) = .ok c.settled := by
  change Cursor.ofValue c.toValue = _
  cases c with
  | start => rfl
  | transaction s nonempty =>
    change Cursor.ofSignature s = _
    simp [Cursor.ofSignature, nonempty, Cursor.settled]
  | block height nonneg =>
    have hheight : Cursor.ofHeight (.number height.toInt) =
        .ok (.block (.number height.toInt) nonneg) := dif_pos nonneg
    cases height with
    | number n => exact hheight
    | flag b => exact hheight

/-- The bytes of a cursor that was written are read as the cursor. -/
theorem ofBytes_encode {c : Cursor} {s : String} (h : Json.write (document c) = .ok s) :
    ofBytes (Text.encode s) = .ok c.settled := by
  have hread : Json.read s = .ok (document c) :=
    read_write (tellable_document (writable_of_write h) _) h
  unfold ofBytes
  rw [Text.decode?_encode]
  dsimp only
  rw [hread]
  exact cursorOf_document c

end Checkpoint

end ChainIndexer
