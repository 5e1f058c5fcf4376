import ChainIndexer.Cursor.Candidate
import ChainIndexer.Failure
import ChainIndexer.Value.Access

/-!
Cursors as values, in the form in which a checkpoint keeps them: an object with a type and,
depending on it, a height or a signature.
-/

namespace ChainIndexer

namespace Cursor

/-- A block cursor, if the height is not negative. -/
def ofHeight (height : Whole) : Except Failure Cursor :=
  if h : 0 ≤ height.toInt then .ok (.block height h) else .error .heightNotNatural

/-- A transaction cursor, if the signature is not empty. -/
def ofSignature (signature : String) : Except Failure Cursor :=
  if h : signature ≠ "" then .ok (.transaction signature h) else .error .signatureEmpty

/-- A block cursor out of any value in the place of a height. -/
def ofHeightValue : Value → Except Failure Cursor
  | .int n => ofHeight (.number n)
  | .bool b => ofHeight (.flag b)
  | _ => .error .heightNotNatural

/-- A transaction cursor out of any value in the place of a signature. -/
def ofSignatureValue : Value → Except Failure Cursor
  | .text s => ofSignature s
  | _ => .error .signatureEmpty

def toValue : Cursor → Value
  | .start => .object [("type", .text "none")]
  | .block h _ => .object [("type", .text "block"), ("height", .ofWhole h)]
  | .transaction s _ => .object [("type", .text "transaction"), ("signature", .text s)]

/-- Reads a cursor. The height may be any number or numeral, the signature any value. -/
def ofValue (v : Value) : Except Failure Cursor := do
  let kind ← v.get "type"
  if kind.isText "none" then return .start
  else if kind.isText "block" then
    let height ← v.item "height"
    let n ← height.toInteger
    ofHeight (.number n)
  else if kind.isText "transaction" then
    let signature ← v.item "signature"
    ofSignature signature.shown
  else throw (.unknownCursorType kind)

end Cursor

namespace Candidate

def toValue : Candidate → Except Failure Value
  | .cursor c => .ok c.toValue
  | .other v => .error (.notACursor v)

end Candidate

end ChainIndexer
