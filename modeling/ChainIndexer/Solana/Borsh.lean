import ChainIndexer.Bytes.Base58
import ChainIndexer.Bytes.Endian
import ChainIndexer.Effects

/-!
Reading the data of an account from front to back. Numbers are little-endian, a text has its length
in bytes before it or fills a field of fixed size with zeros at its end. A read that fails for want
of bytes leaves the position where it was; one that fails later leaves it behind the bytes it took.
-/

namespace ChainIndexer.Solana

/-- Bytes, and how many of them have been read. -/
structure Source where
  data : Bytes
  pos : Nat
  deriving DecidableEq, Repr

/-- An activity that reads. -/
abbrev Borsh (α : Type) := Act (StateM Source) α

namespace Borsh

def take (count : Nat) : Borsh Bytes := do
  let s ← Act.sure get
  if s.data.length < s.pos + count then throw (.bytesMissing count s.pos (s.data.length - s.pos))
  Act.sure (set { s with pos := s.pos + count })
  return (s.data.drop s.pos).take count

def number (width : Nat) : Borsh Nat := do
  return Bytes.ofLittle (← take width)

def u8 : Borsh Nat := number 1

def u32 : Borsh Nat := number 4

def u64 : Borsh Nat := number 8

def u128 : Borsh Nat := number 16

/-- A key, as base-58 text. -/
def key : Borsh String := do
  return Base58.write (← take 32)

/-- A text with its length before it. -/
def string : Borsh String := do
  let length ← u32
  let bs ← take length
  match Text.decode? bs with
  | some s => return s
  | none => throw (.textNotUtf8 (← Act.sure get).pos)

/-- Bytes without the zeros at their end. -/
def dropZeros (bs : Bytes) : Bytes :=
  (bs.reverse.dropWhile (· == 0)).reverse

/-- A text in a field of a fixed size. -/
def fixedText (size : Nat) : Borsh String := do
  let bs ← take size
  match Text.decode? (dropZeros bs) with
  | some s => return s
  | none => throw .fixedTextNotUtf8

/-- What is read from bytes, from a position on. -/
def readFrom {α : Type} (read : Borsh α) (data : Bytes) (pos : Nat) : Except Failure α :=
  (read.run ⟨data, pos⟩).1

end Borsh

end ChainIndexer.Solana
