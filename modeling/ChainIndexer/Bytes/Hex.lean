import ChainIndexer.Text.Digit
import ChainIndexer.Text.Utf8

/-!
Bytes as hexadecimal text. `write` gives two lower-case digits for each byte; `read?` takes digits
of either case and blanks between bytes, though not inside one. Main statement: `read?_write`.
-/

namespace ChainIndexer.Hex

def digitsOf (b : UInt8) : List Char :=
  [Text.hexChar (b.toNat / 16), Text.hexChar (b.toNat % 16)]

def write (bs : Bytes) : String :=
  String.ofList (bs.flatMap digitsOf)

/-- The ASCII blanks that may stand between two bytes. -/
def isBlank (c : Char) : Bool :=
  c == ' ' || (0x09 ≤ c.toNat && c.toNat ≤ 0x0D)

/-- Reads digits two by two. -/
def readList? : List Char → Option Bytes
  | [] => some []
  | [c] => if isBlank c then some [] else none
  | c :: d :: rest =>
    if isBlank c then readList? (d :: rest)
    else do
      let high ← Text.hexDigit? c
      let low ← Text.hexDigit? d
      let bs ← readList? rest
      return UInt8.ofNat (high * 16 + low) :: bs

/-- What follows the mark `0x`, if there is one. -/
def dropMark : List Char → List Char
  | '0' :: 'x' :: rest => rest
  | '0' :: 'X' :: rest => rest
  | cs => cs

/-- The bytes of a text of hexadecimal digits. -/
def read? (s : String) : Option Bytes :=
  readList? s.toList

theorem readList?_digitsOf (b : UInt8) (rest : List Char) :
    readList? (digitsOf b ++ rest) = (readList? rest).map (b :: ·) := by
  have hb : b.toNat < 256 := b.toNat_lt
  have hh : b.toNat / 16 < 16 := by omega
  have hl : b.toNat % 16 < 16 := by omega
  have hne : ∀ n < 16, isBlank (Text.hexChar n) = false := by decide
  have hval : UInt8.ofNat (b.toNat / 16 * 16 + b.toNat % 16) = b := by
    have : b.toNat / 16 * 16 + b.toNat % 16 = b.toNat := by omega
    rw [this]; simp
  simp only [digitsOf, List.cons_append, List.nil_append, readList?, hne _ hh,
    Text.hexDigit?_hexChar _ hh, Text.hexDigit?_hexChar _ hl]
  cases readList? rest with
  | none => rfl
  | some bs => exact congrArg (fun x => some (x :: bs)) hval

theorem read?_write (bs : Bytes) : read? (write bs) = some bs := by
  simp only [read?, write, String.toList_ofList]
  induction bs with
  | nil => rfl
  | cons b bs ih => simp [List.flatMap_cons, readList?_digitsOf, ih]

end ChainIndexer.Hex
