import ChainIndexer.Fault
import ChainIndexer.Number.Numeral
import ChainIndexer.Value

/-!
Looking into a value of no fixed shape. Each operation says of which shapes it makes sense and with
which fault it refuses the others; a missing member and a wrong type are told apart, because only
the second is ever handled.
-/

namespace ChainIndexer.Value

/-- A field of an object, `null` if the object has none of that name. -/
def get (v : Value) (key : String) : Except Fault Value :=
  match v with
  | .object fields => .ok ((field? fields key).getD .null)
  | _ => .error .noMember

/-- A field of an object, or a default if the object has none of that name. -/
def getD (v : Value) (key : String) (default : Value) : Except Fault Value :=
  match v with
  | .object fields => .ok ((field? fields key).getD default)
  | _ => .error .noMember

/-- A field that an object must have. -/
def item (v : Value) (key : String) : Except Fault Value :=
  match v with
  | .object fields =>
    match field? fields key with
    | some x => .ok x
    | none => .error .missingKey
  | _ => .error .wrongType

/-- The element at a position of a list, counted from the end if the position is negative. -/
def elementAt {α : Type} (items : List α) (n : Int) : Except Fault α :=
  let i := if n < 0 then n + items.length else n
  if i < 0 then .error .badIndex
  else match items[i.toNat]? with
    | some x => .ok x
    | none => .error .badIndex

/-- The element of a list that a value points at. -/
def elementOf {α : Type} (items : List α) (i : Value) : Except Fault α :=
  match i with
  | .int n => elementAt items n
  | .bool b => elementAt items (if b then 1 else 0)
  | _ => .error .wrongType

/-- The element at a position of a list, a text or bytes. An object has no numbered field. -/
def index (v : Value) (n : Int) : Except Fault Value :=
  match v with
  | .list items => elementAt items n
  | .text s => (elementAt s.toList n).map fun c => .text c.toString
  | .bytes bs => (elementAt bs n).map fun b => .int b.toNat
  | .object _ => .error .missingKey
  | _ => .error .wrongType

/-- What a value holds one after the other: elements, characters, bytes or the names of fields. -/
def elements (v : Value) : Except Fault (List Value) :=
  match v with
  | .list items => .ok items
  | .text s => .ok (s.toList.map fun c => .text c.toString)
  | .bytes bs => .ok (bs.map fun b => .int b.toNat)
  | .object fields => .ok (fields.map fun f => .text f.1)
  | _ => .error .wrongType

/-- How many things a value holds. -/
def size (v : Value) : Except Fault Nat :=
  v.elements.map List.length

/-- A whole number out of a number or a numeral; what follows the point of a number is dropped. -/
def toInteger (v : Value) : Except Fault Int :=
  match v with
  | .int n => .ok n
  | .bool b => .ok (if b then 1 else 0)
  | .float x =>
    match Binary64.shape x with
    | .nan => .error .badValue
    | .infinite _ => .error .overflow
    | .finite negative m e => .ok (Binary64.signed negative (Binary64.wholePart m e))
  | .text s =>
    match Numeral.read? 10 s with
    | some n => .ok n
    | none => .error .badValue
  | _ => .error .wrongType

/-- A whole number out of a hexadecimal numeral. -/
def readHex (v : Value) : Except Fault Int :=
  match v with
  | .text s =>
    match Numeral.read? 16 s with
    | some n => .ok n
    | none => .error .badValue
  | _ => .error .wrongType

/-- A number as an amount. -/
def toAmount (v : Value) : Except Fault Amount :=
  match v with
  | .int n => .ok (.whole (.number n))
  | .bool b => .ok (.whole (.flag b))
  | .float x => .ok (.real x)
  | _ => .error .wrongType

end ChainIndexer.Value
