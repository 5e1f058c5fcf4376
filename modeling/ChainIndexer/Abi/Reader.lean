import ChainIndexer.Abi.Writer
import ChainIndexer.Fault

/-!
Contract values read from bytes, strictly: what a type leaves unused in a word must be zero, and
every byte of a value must be there. What follows the last value does not matter. Before the members
of a tuple are read its head is checked as a whole: a pointer must lead behind the head and to a
byte that is there.
-/

namespace ChainIndexer.Abi

/-- The number in the word at a position. -/
def wordAt (data : Bytes) (pos : Nat) : Except Fault Nat :=
  let word := (data.drop pos).take 32
  if word.length = 32 then .ok (Bytes.ofBig word) else .error .notAbi

def uintAt (data : Bytes) (pos bits : Nat) : Except Fault (Fin (2 ^ bits)) := do
  let n ← wordAt data pos
  if h : n < 2 ^ bits then return ⟨n, h⟩ else throw .notAbi

def addressAt (data : Bytes) (pos : Nat) : Except Fault AddressBytes :=
  let padding := (data.drop pos).take 12
  let address := (data.drop (pos + 12)).take 20
  if h : address.length = 20 then
    if padding.all (· == 0) then .ok ⟨address, h⟩ else .error .notAbi
  else .error .notAbi

/-- The lengths that cannot be addressed. -/
def lengthBound : Nat := 2 ^ 63

def textAt (data : Bytes) (pos : Nat) : Except Fault String := do
  let length ← wordAt data pos
  let padded := paddedLength length
  if lengthBound ≤ padded then throw .overflow
  let body := (data.drop (pos + 32)).take padded
  if body.length < padded then throw .notAbi
  if !(body.drop length).all (· == 0) then throw .notAbi
  match Text.decode? (body.take length) with
  | some s => return s
  | none => throw .notUtf8

mutual

/-- The value that begins at a position. -/
def readAt (data : Bytes) : (t : Ty) → (pos : Nat) → Except Fault t.Val
  | .uint bits, pos => uintAt data pos bits
  | .address, pos => addressAt data pos
  | .string, pos => textAt data pos
  | .tuple ts, pos => do
    checkHead data pos (pos + 32 * ts.length) ts pos
    readMembers data pos ts pos

/-- The members of a tuple, which begins at `start`, from a position in its head on. -/
def readMembers (data : Bytes) (start : Nat) : (ts : List Ty) → (pos : Nat) →
    Except Fault (Ty.Vals ts)
  | [], _ => .ok ()
  | t :: ts, pos => do
    let v ← if t.isDynamic then do
        let pointer ← wordAt data pos
        readAt data t (start + pointer)
      else readAt data t pos
    let vs ← readMembers data start ts (pos + t.headWidth)
    return (v, vs)

/-- Checks the head of a tuple, which begins at `start`, from a position in it on. -/
def checkHead (data : Bytes) (start behind : Nat) : (ts : List Ty) → (pos : Nat) →
    Except Fault Unit
  | [], _ => .ok ()
  | t :: ts, pos => do
    if t.isDynamic then do
      let pointer ← wordAt data pos
      if start + pointer < behind || data.length ≤ start + pointer then throw .notAbi
    else do
      let _ ← readAt data t pos
    checkHead data start behind ts (pos + t.headWidth)

end

/-- Values of some types, one after the other, from the start of some bytes. -/
def readAll (ts : List Ty) (data : Bytes) : Except Fault (Ty.Vals ts) :=
  readAt data (.tuple ts) 0

def read (t : Ty) (data : Bytes) : Except Fault t.Val :=
  (readAll [t] data).map (·.1)

end ChainIndexer.Abi
