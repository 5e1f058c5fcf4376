/-!
Texts as bytes. `encode` writes UTF-8 and `decode?` reads it strictly; `decodeLossy` reads any
bytes, with U+FFFD for each longest run that begins a character and cannot be continued.
Main statements: `decode?_encode` and `encode_of_decode?`, so `decode?` accepts exactly the bytes
that `encode` writes.
-/

namespace ChainIndexer

abbrev Bytes := List UInt8

namespace Text

def encode (s : String) : Bytes :=
  s.toByteArray.data.toList

/-- The text that some bytes spell, if they are well-formed UTF-8. -/
def decode? (bs : Bytes) : Option String :=
  String.fromUTF8? ⟨bs.toArray⟩

/-- What is still owed to the character being read: a number of bytes, the range of the next one
and the bits read so far. -/
structure Owed where
  count : Nat
  low : Nat
  high : Nat
  bits : Nat

/-- Between two characters nothing is owed. -/
def Owed.nothing : Owed := ⟨0, 0, 0, 0⟩

/-- The effect of a byte between two characters: a whole character, the beginning of a longer one,
or nothing that UTF-8 allows. -/
def Owed.start (b : Nat) : Option (Owed × List Char) :=
  if b < 0x80 then some (.nothing, [Char.ofNat b])
  else if b < 0xC2 then none
  else if b < 0xE0 then some (⟨1, 0x80, 0xBF, b - 0xC0⟩, [])
  else if b = 0xE0 then some (⟨2, 0xA0, 0xBF, 0⟩, [])
  else if b = 0xED then some (⟨2, 0x80, 0x9F, 0xD⟩, [])
  else if b < 0xF0 then some (⟨2, 0x80, 0xBF, b - 0xE0⟩, [])
  else if b = 0xF0 then some (⟨3, 0x90, 0xBF, 0⟩, [])
  else if b < 0xF4 then some (⟨3, 0x80, 0xBF, b - 0xF0⟩, [])
  else if b = 0xF4 then some (⟨3, 0x80, 0x8F, 4⟩, [])
  else none

/-- The effect of a byte inside a character. -/
def Owed.continue (o : Owed) (b : Nat) : Option (Owed × List Char) :=
  if o.low ≤ b ∧ b ≤ o.high then
    let bits := o.bits * 64 + (b - 0x80)
    if o.count = 1 then some (.nothing, [Char.ofNat bits])
    else some (⟨o.count - 1, 0x80, 0xBF, bits⟩, [])
  else none

/-- Reads bytes with a replacement character for what is not UTF-8. -/
def decodeLossyFrom : Owed → Bytes → List Char
  | o, [] => if o.count = 0 then [] else ['\uFFFD']
  | o, b :: bs =>
    if o.count = 0 then
      match Owed.start b.toNat with
      | some (o', cs) => cs ++ decodeLossyFrom o' bs
      | none => '\uFFFD' :: decodeLossyFrom .nothing bs
    else
      match o.continue b.toNat with
      | some (o', cs) => cs ++ decodeLossyFrom o' bs
      | none =>
        match Owed.start b.toNat with
        | some (o', cs) => '\uFFFD' :: cs ++ decodeLossyFrom o' bs
        | none => '\uFFFD' :: '\uFFFD' :: decodeLossyFrom .nothing bs

/-- Any bytes as a text to look at. -/
def decodeLossy (bs : Bytes) : String :=
  String.ofList (decodeLossyFrom .nothing bs)

theorem decode?_encode (s : String) : decode? (encode s) = some s := by
  have h : (⟨s.toByteArray.data.toList.toArray⟩ : ByteArray) = s.toByteArray := by simp
  rw [decode?, encode, h, String.fromUTF8?, dif_pos s.isValidUTF8]
  rfl

theorem encode_of_decode? {bs : Bytes} {s : String} (h : decode? bs = some s) : encode s = bs := by
  rw [decode?, String.fromUTF8?] at h
  split at h
  · cases h; simp [encode, String.fromUTF8]
  · cases h

end Text

end ChainIndexer
