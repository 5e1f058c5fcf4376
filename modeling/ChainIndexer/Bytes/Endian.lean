import ChainIndexer.Number.Power
import ChainIndexer.Text.Utf8

/-!
Natural numbers as byte strings, in either order of the bytes. Main statements: the written bytes
have the asked length and read back as the number, `ofBig_toBig` and `ofLittle_toLittle`, and bytes
that are read write back as they were, `toLittle_ofLittle`.
-/

namespace ChainIndexer.Bytes

/-- The number that bytes stand for, the least significant one first. -/
def ofLittle : Bytes → Nat
  | [] => 0
  | b :: bs => b.toNat + 256 * ofLittle bs

/-- The number that bytes stand for, the most significant one first. -/
def ofBig (bs : Bytes) : Nat :=
  ofLittle bs.reverse

/-- The lowest bytes of a number, the least significant one first. -/
def toLittle : (width n : Nat) → Bytes
  | 0, _ => []
  | width + 1, n => UInt8.ofNat (n % 256) :: toLittle width (n / 256)

/-- The lowest bytes of a number, the most significant one first. -/
def toBig (width n : Nat) : Bytes :=
  (toLittle width n).reverse

@[simp] theorem length_toLittle (width n : Nat) : (toLittle width n).length = width := by
  induction width generalizing n with
  | zero => rfl
  | succ width ih => simp [toLittle, ih]

@[simp] theorem length_toBig (width n : Nat) : (toBig width n).length = width := by
  simp [toBig]

theorem ofLittle_toLittle (width n : Nat) : ofLittle (toLittle width n) = n % 256 ^ width := by
  induction width generalizing n with
  | zero => simp [toLittle, ofLittle, Nat.mod_one]
  | succ width ih =>
    have hb : (UInt8.ofNat (n % 256)).toNat = n % 256 := by
      simp
    rw [toLittle, ofLittle, ih, hb, Nat.pow_succ', Nat.mod_mul]

theorem ofBig_toBig (width n : Nat) : ofBig (toBig width n) = n % 256 ^ width := by
  simp [ofBig, toBig, ofLittle_toLittle]

theorem toLittle_ofLittle (bs : Bytes) : toLittle bs.length (ofLittle bs) = bs := by
  induction bs with
  | nil => rfl
  | cons b bs ih =>
    have hb : b.toNat < 256 := b.toNat_lt
    have hm : (b.toNat + 256 * ofLittle bs) % 256 = b.toNat := by omega
    have hd : (b.toNat + 256 * ofLittle bs) / 256 = ofLittle bs := by omega
    simp [ofLittle, toLittle, hm, hd, ih]

theorem ofLittle_lt (bs : Bytes) : ofLittle bs < 256 ^ bs.length := by
  induction bs with
  | nil => simp [ofLittle]
  | cons b bs ih =>
    have hb : b.toNat < 256 := b.toNat_lt
    rw [ofLittle, List.length_cons, Nat.pow_succ]
    omega

theorem ofBig_lt (bs : Bytes) : ofBig bs < 256 ^ bs.length := by
  simpa [ofBig] using ofLittle_lt bs.reverse

/-- The digits of a number in a base, the least significant one first and none for zero; `fuel`
bounds how many there are. -/
def digitsFrom (base : Nat) : (fuel n : Nat) → List Nat
  | 0, _ => []
  | fuel + 1, n => if n = 0 then [] else n % base :: digitsFrom base fuel (n / base)

/-- The digits of a number in a base of two or more, the most significant one first. -/
def digits (base n : Nat) : List Nat :=
  (digitsFrom base n n).reverse

end ChainIndexer.Bytes
