import ChainIndexer.Number.Power
import ChainIndexer.Text.Utf8

/-!
The types of contract values that the protocol uses, and the values of each type. A type is static
if its values take a fixed number of words, and dynamic if a word points at them.
-/

namespace ChainIndexer.Abi

inductive Ty where
  /-- Natural numbers of some bits, at most 256. -/
  | uint (bits : Nat)
  | address
  | string
  | tuple (members : List Ty)

abbrev AddressBytes := { bs : Bytes // bs.length = 20 }

namespace Ty

mutual

def Val : Ty → Type
  | .uint bits => Fin (2 ^ bits)
  | .address => AddressBytes
  | .string => String
  | .tuple ts => Vals ts

def Vals : List Ty → Type
  | [] => Unit
  | t :: ts => Val t × Vals ts

end

mutual

/-- Whether the values of a type stand behind a pointer. -/
def isDynamic : Ty → Bool
  | .uint _ => false
  | .address => false
  | .string => true
  | .tuple ts => anyDynamic ts

def anyDynamic : List Ty → Bool
  | [] => false
  | t :: ts => isDynamic t || anyDynamic ts

end

mutual

/-- The number of bytes of a value of a static type. -/
def width : Ty → Nat
  | .uint _ => 32
  | .address => 32
  | .string => 32
  | .tuple ts => widths ts

def widths : List Ty → Nat
  | [] => 0
  | t :: ts => width t + widths ts

end

/-- The number of bytes of a value or of the pointer to it. -/
def headWidth (t : Ty) : Nat :=
  if t.isDynamic then 32 else t.width

def headWidths : List Ty → Nat
  | [] => 0
  | t :: ts => t.headWidth + headWidths ts

/-- Names with commas between them. -/
def commas : List String → String
  | [] => ""
  | [s] => s
  | s :: rest => s ++ "," ++ commas rest

mutual

def name : Ty → String
  | .uint bits => "uint" ++ String.ofList (Nat.toDigits 10 bits)
  | .address => "address"
  | .string => "string"
  | .tuple ts => "(" ++ commas (names ts) ++ ")"

def names : List Ty → List String
  | [] => []
  | t :: ts => name t :: names ts

end

/-- A number of bits in decimal, which is a multiple of eight up to 256. -/
def bits? (cs : List Char) : Option Nat :=
  let n := cs.foldl (fun n c => n * 10 + (c.toNat - '0'.toNat)) 0
  if cs.isEmpty || !cs.all Char.isDigit || cs.head? == some '0' || n % 8 != 0 || 256 < n then none
  else some n

/-- A type that is no tuple, by its name. -/
def simple? (cs : List Char) : Option Ty :=
  match cs with
  | 'u' :: 'i' :: 'n' :: 't' :: bits => (bits? bits).map .uint
  | _ =>
    if cs = "address".toList then some .address
    else if cs = "string".toList then some .string
    else none

mutual

/-- A type at the head of a text, and what follows its name; `fuel` bounds the depth of tuples and
the number of members. -/
def readFrom : (fuel : Nat) → List Char → Option (Ty × List Char)
  | 0, _ => none
  | fuel + 1, '(' :: ')' :: rest => if fuel = 0 then none else some (.tuple [], rest)
  | fuel + 1, '(' :: rest => (readMembers fuel rest).map fun (ts, r) => (.tuple ts, r)
  | _ + 1, cs =>
    (simple? (cs.takeWhile Char.isAlphanum)).map fun t => (t, cs.dropWhile Char.isAlphanum)

/-- The members of a tuple from one of them on, and what follows the tuple. -/
def readMembers : (fuel : Nat) → List Char → Option (List Ty × List Char)
  | 0, _ => none
  | fuel + 1, cs =>
    match readFrom fuel cs with
    | some (t, ',' :: rest) => (readMembers fuel rest).map fun (ts, r) => (t :: ts, r)
    | some (t, ')' :: rest) => some ([t], rest)
    | _ => none

end

def ofName? (s : String) : Option Ty :=
  match readFrom (2 * s.length + 2) s.toList with
  | some (t, []) => some t
  | _ => none

end Ty

end ChainIndexer.Abi
