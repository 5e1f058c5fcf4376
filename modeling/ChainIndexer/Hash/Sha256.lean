import ChainIndexer.Bytes.Endian

/-!
SHA-256. Words of 32 bits are natural numbers below `2 ^ 32`.
-/

namespace ChainIndexer.Sha256

/-- The constants of the 64 steps. -/
def stepConstants : List Nat :=
  [0x428a2f98, 0x71374491, 0xb5c0fbcf, 0xe9b5dba5, 0x3956c25b, 0x59f111f1, 0x923f82a4, 0xab1c5ed5,
   0xd807aa98, 0x12835b01, 0x243185be, 0x550c7dc3, 0x72be5d74, 0x80deb1fe, 0x9bdc06a7, 0xc19bf174,
   0xe49b69c1, 0xefbe4786, 0x0fc19dc6, 0x240ca1cc, 0x2de92c6f, 0x4a7484aa, 0x5cb0a9dc, 0x76f988da,
   0x983e5152, 0xa831c66d, 0xb00327c8, 0xbf597fc7, 0xc6e00bf3, 0xd5a79147, 0x06ca6351, 0x14292967,
   0x27b70a85, 0x2e1b2138, 0x4d2c6dfc, 0x53380d13, 0x650a7354, 0x766a0abb, 0x81c2c92e, 0x92722c85,
   0xa2bfe8a1, 0xa81a664b, 0xc24b8b70, 0xc76c51a3, 0xd192e819, 0xd6990624, 0xf40e3585, 0x106aa070,
   0x19a4c116, 0x1e376c08, 0x2748774c, 0x34b0bcb5, 0x391c0cb3, 0x4ed8aa4a, 0x5b9cca4f, 0x682e6ff3,
   0x748f82ee, 0x78a5636f, 0x84c87814, 0x8cc70208, 0x90befffa, 0xa4506ceb, 0xbef9a3f7, 0xc67178f2]

/-- The state of the compression: eight words. -/
structure State where
  a : Nat
  b : Nat
  c : Nat
  d : Nat
  e : Nat
  f : Nat
  g : Nat
  h : Nat

/-- The state before the first block. -/
def State.first : State :=
  ⟨0x6a09e667, 0xbb67ae85, 0x3c6ef372, 0xa54ff53a, 0x510e527f, 0x9b05688c, 0x1f83d9ab, 0x5be0cd19⟩

/-- The sum of two words. -/
def add (x y : Nat) : Nat :=
  (x + y) % 2 ^ 32

def rotate (x n : Nat) : Nat :=
  ((x >>> n) ||| (x <<< (32 - n))) % 2 ^ 32

/-- The next word of the schedule, from the sixteen before it, the latest one first. -/
def nextWord (ws : List Nat) : Nat :=
  let x := ws.getD 14 0
  let y := ws.getD 1 0
  let s0 := rotate x 7 ^^^ rotate x 18 ^^^ (x >>> 3)
  let s1 := rotate y 17 ^^^ rotate y 19 ^^^ (y >>> 10)
  add (add (ws.getD 15 0) s0) (add (ws.getD 6 0) s1)

/-- The words of a schedule that goes on from the given ones, the latest one first. -/
def extend : (count : Nat) → List Nat → List Nat
  | 0, ws => ws
  | count + 1, ws => extend count (nextWord ws :: ws)

/-- The words of four bytes each. -/
def wordsOf : (count : Nat) → Bytes → List Nat
  | 0, _ => []
  | count + 1, bs => Bytes.ofBig (bs.take 4) :: wordsOf count (bs.drop 4)

/-- One step, with its constant and its word. -/
def step (s : State) (kw : Nat × Nat) : State :=
  let s1 := rotate s.e 6 ^^^ rotate s.e 11 ^^^ rotate s.e 25
  let choice := (s.e &&& s.f) ^^^ ((s.e ^^^ (2 ^ 32 - 1)) &&& s.g)
  let t1 := add (add s.h s1) (add choice (add kw.1 kw.2))
  let s0 := rotate s.a 2 ^^^ rotate s.a 13 ^^^ rotate s.a 22
  let majority := (s.a &&& s.b) ^^^ (s.a &&& s.c) ^^^ (s.b &&& s.c)
  ⟨add t1 (add s0 majority), s.a, s.b, s.c, add s.d t1, s.e, s.f, s.g⟩

/-- Takes in a block of 64 bytes. -/
def compress (s : State) (block : Bytes) : State :=
  let schedule := (extend 48 (wordsOf 16 block).reverse).reverse
  let t := (stepConstants.zip schedule).foldl step s
  ⟨add s.a t.a, add s.b t.b, add s.c t.c, add s.d t.d, add s.e t.e, add s.f t.f, add s.g t.g,
    add s.h t.h⟩

/-- A message with its padding: a set bit, zeros, and its length in bits. -/
def pad (bs : Bytes) : Bytes :=
  let zeros := (119 - bs.length % 64) % 64
  bs ++ 0x80 :: List.replicate zeros 0 ++ Bytes.toBig 8 (8 * bs.length)

/-- Takes in `count` blocks one after the other. -/
def compressAll (s : State) : (count : Nat) → Bytes → State
  | 0, _ => s
  | count + 1, bs => compressAll (compress s (bs.take 64)) count (bs.drop 64)

/-- The 32 bytes of the digest of a message. -/
def digest (bs : Bytes) : Bytes :=
  let message := pad bs
  let s := compressAll State.first (message.length / 64) message
  [s.a, s.b, s.c, s.d, s.e, s.f, s.g, s.h].flatMap (Bytes.toBig 4)

def ofText (s : String) : Bytes :=
  digest (Text.encode s)

end ChainIndexer.Sha256
