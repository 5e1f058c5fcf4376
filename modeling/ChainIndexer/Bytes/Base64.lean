import ChainIndexer.Fault
import ChainIndexer.Text.Utf8

/-!
Bytes read from base-64 text. Characters outside the alphabet are passed over, the padding ends the
text wherever it is complete, and a text that ends inside a group of four without it is refused.
-/

namespace ChainIndexer.Base64

def sextet? (c : Char) : Option Nat :=
  if 'A' ≤ c ∧ c ≤ 'Z' then some (c.toNat - 0x41)
  else if 'a' ≤ c ∧ c ≤ 'z' then some (c.toNat - 0x61 + 26)
  else if '0' ≤ c ∧ c ≤ '9' then some (c.toNat - 0x30 + 52)
  else if c = '+' then some 62
  else if c = '/' then some 63
  else none

/-- The last group as far as it has been read: how many characters of it, the bits left over from
them, and how many signs of padding have followed. -/
structure Group where
  size : Nat
  bits : Nat
  pads : Nat

/-- The effect of a character of the alphabet: the group that it leads to, and the byte that it
completes. -/
def Group.push (g : Group) (v : Nat) : Group × Bytes :=
  match g.size with
  | 0 => (⟨1, v, 0⟩, [])
  | 1 => (⟨2, v % 16, 0⟩, [UInt8.ofNat (g.bits * 4 + v / 16)])
  | 2 => (⟨3, v % 4, 0⟩, [UInt8.ofNat (g.bits * 16 + v / 4)])
  | _ => (⟨0, 0, 0⟩, [UInt8.ofNat (g.bits * 64 + v)])

/-- Reads on in a group. -/
def readFrom (g : Group) : List Char → Except Fault Bytes
  | [] => if g.size = 0 then .ok [] else .error .badValue
  | c :: cs =>
    if c = '=' then
      if 2 ≤ g.size then
        if 4 ≤ g.size + g.pads + 1 then .ok [] else readFrom { g with pads := g.pads + 1 } cs
      else readFrom g cs
    else
      match sextet? c with
      | none => readFrom g cs
      | some v =>
        let (next, out) := g.push v
        (readFrom next cs).map (out ++ ·)

/-- The bytes of a base-64 text, which must be ASCII. -/
def read (s : String) : Except Fault Bytes :=
  if s.toList.any (0x80 ≤ ·.toNat) then .error .badValue
  else readFrom ⟨0, 0, 0⟩ s.toList

end ChainIndexer.Base64
