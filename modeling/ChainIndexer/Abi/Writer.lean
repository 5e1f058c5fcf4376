import ChainIndexer.Abi.Ty
import ChainIndexer.Bytes.Endian

/-!
Contract values as bytes. A static value stands where it belongs; a dynamic one stands behind the
heads of its tuple, and a word in its place says how far from the start of the tuple.
-/

namespace ChainIndexer.Abi

/-- The length of a text in whole words. -/
def paddedLength (n : Nat) : Nat :=
  (n + 31) / 32 * 32

/-- A text: its length in bytes, the bytes, and zeros up to a whole word. -/
def writeText (s : String) : Bytes :=
  let bs := Text.encode s
  Bytes.toBig 32 bs.length ++ bs ++ List.replicate (paddedLength bs.length - bs.length) 0

mutual

def write : (t : Ty) → t.Val → Bytes
  | .uint _, n => Bytes.toBig 32 n.val
  | .address, a => List.replicate 12 0 ++ a.val
  | .string, s => writeText s
  | .tuple ts, vs =>
    let parts := writeParts ts vs (Ty.headWidths ts)
    parts.1 ++ parts.2

/-- The heads of the members of a tuple, and what stands behind all of the heads from the position
`tail` on. -/
def writeParts : (ts : List Ty) → Ty.Vals ts → (tail : Nat) → Bytes × Bytes
  | [], _, _ => ([], [])
  | t :: ts, (v, vs), tail =>
    if t.isDynamic then
      let body := write t v
      let rest := writeParts ts vs (tail + body.length)
      (Bytes.toBig 32 tail ++ rest.1, body ++ rest.2)
    else
      let rest := writeParts ts vs tail
      (write t v ++ rest.1, rest.2)

end

end ChainIndexer.Abi
