import ChainIndexer.Abi.Ty
import ChainIndexer.Bytes.Hex
import ChainIndexer.Fault
import ChainIndexer.Hash.Keccak
import ChainIndexer.Value

/-!
Contract values as values of no fixed shape: numbers, texts, and lists for tuples. An address is a
text of 40 hexadecimal digits. If it has letters of both cases, these must be the ones that the
digest of the address prescribes.
-/

namespace ChainIndexer.Abi

/-- The text of an address, in lower case and with `0x`. -/
def addressText (bs : Bytes) : String :=
  "0x" ++ Hex.write bs

/-- The digits of an address in the cases that its digest prescribes: a letter is in upper case
where the digest has a digit of eight or more. -/
def prescribed (digits : List Char) : List Char :=
  let lower := digits.map Char.toLower
  let digest := Keccak.ofText (String.ofList lower)
  let marks : List Bool :=
    digest.flatMap fun b => [decide (8 ≤ b.toNat / 16), decide (8 ≤ b.toNat % 16)]
  List.zipWith (fun (c : Char) (up : Bool) => if up then c.toUpper else c) lower marks

def isMixed (digits : List Char) : Bool :=
  digits.any Char.isLower && digits.any Char.isUpper

/-- The address that a text names. -/
def addressOf? (s : String) : Option AddressBytes :=
  let digits := Hex.dropMark s.toList
  if digits.length ≠ 40 || !digits.all fun c => (Text.hexDigit? c).isSome then none
  else if isMixed digits && s.toList != '0' :: 'x' :: prescribed digits then none
  else match Hex.read? (String.ofList digits) with
    | some bs => if h : bs.length = 20 then some ⟨bs, h⟩ else none
    | none => none

mutual

/-- The value of a type that a value of no fixed shape stands for. -/
def ofValue? : (t : Ty) → Value → Option t.Val
  | .uint bits, .int n =>
    if 0 ≤ n then if h : n.toNat < 2 ^ bits then some ⟨n.toNat, h⟩ else none else none
  | .address, .text s => addressOf? s
  | .string, .text s => some s
  | .tuple ts, .list vs => ofValues? ts vs
  | _, _ => none

def ofValues? : (ts : List Ty) → List Value → Option (Ty.Vals ts)
  | [], [] => some ()
  | t :: ts, v :: vs => do
    let a ← ofValue? t v
    let as ← ofValues? ts vs
    return (a, as)
  | _, _ => none

end

mutual

/-- A value of a type as a value of no fixed shape. -/
def toValue : (t : Ty) → t.Val → Value
  | .uint _, n => .int n.val
  | .address, a => .text (addressText a.val)
  | .string, s => .text s
  | .tuple ts, vs => .list (toValues ts vs)

def toValues : (ts : List Ty) → Ty.Vals ts → List Value
  | [], _ => []
  | t :: ts, (v, vs) => toValue t v :: toValues ts vs

end

end ChainIndexer.Abi
