import ChainIndexer.Bytes.Endian
import ChainIndexer.Fault
import ChainIndexer.Text.Blank

/-!
Bytes as base-58 text. The alphabet leaves out `0`, `O`, `I` and `l`; a number is written in it with
the most significant digit first, and each zero byte in front by a `1`.
-/

namespace ChainIndexer.Base58

/-- The digits from zero to fifty-seven. -/
def alphabet : List Char :=
  "123456789ABCDEFGHJKLMNPQRSTUVWXYZabcdefghijkmnopqrstuvwxyz".toList

def digitChar (n : Nat) : Char :=
  alphabet.getD n '1'

def digit? (c : Char) : Option Nat :=
  alphabet.findIdx? (· == c)

def write (bs : Bytes) : String :=
  let zeros := bs.takeWhile (· == 0)
  let ds := Bytes.digits 58 (Bytes.ofBig bs)
  String.ofList (zeros.map (fun _ => '1') ++ ds.map digitChar)

/-- The number that digits stand for, the most significant one first. -/
def value? (cs : List Char) : Option Nat :=
  cs.foldlM (fun n c => (digit? c).map (n * 58 + ·)) 0

/-- The bytes of a base-58 text. Blanks at its end do not matter; a character outside ASCII is
refused before one that is no digit. -/
def read (s : String) : Except Fault Bytes :=
  let cs := Text.dropTrailing Text.isBlank s.toList
  if cs.any (0x80 ≤ ·.toNat) then .error .notAscii
  else
    let ones := cs.takeWhile (· == '1')
    match value? cs with
    | none => .error .badValue
    | some n => .ok (ones.map (fun _ => 0) ++ (Bytes.digits 256 n).map UInt8.ofNat)

end ChainIndexer.Base58
