import ChainIndexer.Cursor.Stored
import ChainIndexer.Disk
import ChainIndexer.Json.Printer
import ChainIndexer.Json.Reader
import ChainIndexer.Text.Letter

/-!
The file that keeps the committed cursor. A new cursor is written to a second file, which then takes
the place of the first, so that the first never holds less than a whole cursor. A cursor that would
move back is refused before anything is written.
-/

namespace ChainIndexer

/-- The file of a committed cursor, by its name. -/
structure Checkpoint where
  path : String
  deriving DecidableEq, Repr

namespace Checkpoint

/-- The name of the file that is written first. -/
def scratch (c : Checkpoint) : String :=
  c.path ++ ".tmp"

/-- The cursor in the content of the file. An entry under another name is none. -/
def cursorOf (v : Value) : Except Failure Cursor :=
  match v with
  | .object fields =>
    match Value.field? fields "cursor" with
    | some cursor => Cursor.ofValue cursor
    | none => .ok .start
  | .list items =>
    if items.any (·.isText "cursor") then .error (.fault .wrongType) else .ok .start
  | .text s => if Text.contains s "cursor" then .error (.fault .wrongType) else .ok .start
  | _ => .error (.fault .wrongType)

def ofBytes (bs : Bytes) : Except Failure Cursor := do
  match Text.decode? bs with
  | none => throw (.fault .notUtf8)
  | some s =>
    let v ← Json.read s
    cursorOf v

/-- Failures to read the file that are reported as such. A cursor that is no object at all is not
among them. -/
def isUnreadable (k : Kind) : Bool :=
  k.isSystem || k.isBadValue || k == .fault .missingKey || k == .fault .wrongType

variable {n : Type → Type} [Monad n]

/-- The committed cursor, the start if nothing was committed. -/
def get (c : Checkpoint) (disk : Disk n) : Act n Cursor := do
  if ← Act.sure (disk.isThere c.path) then
    Act.rewording (do
      let bs ← disk.read c.path
      ofBytes bs) isUnreadable .checkpointUnreadable
  else return .start

/-- Writes pieces of text at the end of a file, up to the first that could not be made. -/
def appendAll (disk : Disk n) (path : String) : List (Except Fault String) → Act n Unit
  | [] => return ()
  | .ok s :: rest => do
    disk.append path (Text.encode s)
    appendAll disk path rest
  | .error e :: _ => throw (.fault e)

def writeScratch (c : Checkpoint) (disk : Disk n) (new : Candidate) : Act n Unit := do
  disk.create c.scratch
  let cursor ← new.toValue
  appendAll disk c.scratch (Json.pieces (.object [("cursor", cursor)]))

/-- Puts a cursor in the place of the committed one. -/
def update (c : Checkpoint) (disk : Disk n) (new : Candidate) : Act n Unit := do
  let previous ← c.get disk
  if Candidate.regresses previous new then throw (.regression previous new)
  Act.rewording (do
    c.writeScratch disk new
    disk.replace c.scratch c.path) Kind.isSystem .checkpointUnwritable

end Checkpoint

end ChainIndexer
