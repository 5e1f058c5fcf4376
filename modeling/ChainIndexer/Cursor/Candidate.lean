import ChainIndexer.Cursor
import ChainIndexer.Value
import ChainIndexer.Value.Quoted

/-!
What is handed to a store as a cursor. It need not be one: the store compares and refuses it like
any other, and says in a message what it was.
-/

namespace ChainIndexer

def Cursor.shown : Cursor → String
  | .start => "NoCursor()"
  | .block h _ => "BlockCursor(height=" ++ Value.shownWhole h ++ ")"
  | .transaction s _ => "TransactionCursor(signature=" ++ Text.quoted s ++ ")"

/-- A cursor, or another value in the place of one. -/
inductive Candidate where
  | cursor (c : Cursor)
  | other (v : Value)

namespace Candidate

instance : Coe Cursor Candidate := ⟨.cursor⟩

def shown : Candidate → String
  | .cursor c => c.shown
  | .other v => v.quoted

/-- Whether committing `new` after `previous` would move back. What is no cursor differs in kind
from every cursor but the start, and not from another value that is none. -/
def regresses (previous new : Candidate) : Bool :=
  match previous, new with
  | .cursor p, .cursor n => p.regresses n
  | .cursor .start, .other _ => false
  | .cursor _, .other _ => true
  | .other _, .cursor _ => true
  | .other _, .other _ => false

end Candidate

end ChainIndexer
