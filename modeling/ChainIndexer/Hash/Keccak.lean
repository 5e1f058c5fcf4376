import ChainIndexer.Bytes.Endian

/-!
Keccak with an output of 256 bits, as the contracts use it: the sponge of rate 136 bytes over
the permutation of 25 lanes of 64 bits, with the padding `0x01 … 0x80`.
-/

namespace ChainIndexer.Keccak

/-- The lanes of a state, lane `x + 5 * y` at column `x` and row `y`. -/
abbrev Lanes := List Nat

def lane (a : Lanes) (i : Nat) : Nat :=
  a.getD i 0

/-- A lane rotated to the left. -/
def rotate (x n : Nat) : Nat :=
  ((x <<< n) ||| (x >>> (64 - n))) % 2 ^ 64

/-- The constants that the rounds add to the first lane. -/
def roundConstants : List Nat :=
  [0x0000000000000001, 0x0000000000008082, 0x800000000000808A, 0x8000000080008000,
   0x000000000000808B, 0x0000000080000001, 0x8000000080008081, 0x8000000000008009,
   0x000000000000008A, 0x0000000000000088, 0x0000000080008009, 0x000000008000000A,
   0x000000008000808B, 0x800000000000008B, 0x8000000000008089, 0x8000000000008003,
   0x8000000000008002, 0x8000000000000080, 0x000000000000800A, 0x800000008000000A,
   0x8000000080008081, 0x8000000000008080, 0x0000000080000001, 0x8000000080008008]

/-- By how many bits each lane is rotated. -/
def rotations : List Nat :=
  [0, 1, 62, 28, 27, 36, 44, 6, 55, 20, 3, 10, 43, 25, 39, 41, 45, 15, 21, 8, 18, 2, 61, 56, 14]

/-- Adds to every lane the parities of two columns. -/
def theta (a : Lanes) : Lanes :=
  let parity := (List.range 5).map fun x =>
    lane a x ^^^ lane a (x + 5) ^^^ lane a (x + 10) ^^^ lane a (x + 15) ^^^ lane a (x + 20)
  let change := (List.range 5).map fun x =>
    lane parity ((x + 4) % 5) ^^^ rotate (lane parity ((x + 1) % 5)) 1
  (List.range 25).map fun i => lane a i ^^^ lane change (i % 5)

/-- Rotates every lane and moves it to its new place. -/
def rhoPi (a : Lanes) : Lanes :=
  (List.range 25).map fun i =>
    let x := i % 5
    let y := i / 5
    let source := (x + 3 * y) % 5 + 5 * x
    rotate (lane a source) (rotations.getD source 0)

/-- Adds to every lane a product of the next two of its row. -/
def chi (a : Lanes) : Lanes :=
  (List.range 25).map fun i =>
    let row := i / 5 * 5
    lane a i ^^^ ((lane a (row + (i + 1) % 5) ^^^ (2 ^ 64 - 1)) &&& lane a (row + (i + 2) % 5))

def round (a : Lanes) (constant : Nat) : Lanes :=
  match chi (rhoPi (theta a)) with
  | first :: rest => (first ^^^ constant) :: rest
  | [] => []

/-- The permutation of 24 rounds. -/
def permute (a : Lanes) : Lanes :=
  roundConstants.foldl round a

/-- The number of bytes that one turn of the sponge takes in. -/
def rate : Nat := 136

/-- The bytes of a message, padded to a multiple of the rate. -/
def pad (bs : Bytes) : Bytes :=
  let room := rate - bs.length % rate
  if room = 1 then bs ++ [0x81]
  else bs ++ 0x01 :: List.replicate (room - 2) 0 ++ [0x80]

/-- The lanes of eight bytes each. -/
def lanesOf : (count : Nat) → Bytes → Lanes
  | 0, _ => []
  | count + 1, bs => Bytes.ofLittle (bs.take 8) :: lanesOf count (bs.drop 8)

/-- Takes in a block. -/
def absorb (a : Lanes) (block : Bytes) : Lanes :=
  permute (List.zipWith (· ^^^ ·) a (lanesOf 25 block))

/-- Takes in `count` blocks one after the other. -/
def absorbAll (a : Lanes) : (count : Nat) → Bytes → Lanes
  | 0, _ => a
  | count + 1, bs => absorbAll (absorb a (bs.take rate)) count (bs.drop rate)

/-- The 32 bytes of the digest of a message. -/
def digest (bs : Bytes) : Bytes :=
  let message := pad bs
  let final := absorbAll (List.replicate 25 0) (message.length / rate) message
  (final.take 4).flatMap (Bytes.toLittle 8)

def ofText (s : String) : Bytes :=
  digest (Text.encode s)

end ChainIndexer.Keccak
