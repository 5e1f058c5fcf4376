import ChainIndexer.Number.Binary64
import Mathlib

/-!
The sign of binary64 numbers. `NotBelow` says of a number that it does not lie below zero: it is no
number, a zero of either sign, or has a positive sign. The operations on such numbers give such
numbers, rounding and packing included; only that much of rounding is needed here, so nothing is
said about the value that it gives.
-/

namespace ChainIndexer.Binary64

open Float.Model Float.Model.UnpackedFloat

/-! ### Numbers that are taken apart -/

/-- What does not lie below zero. -/
inductive NotBelow : UnpackedFloat → Prop
  | nan : NotBelow .notANumber
  | zero (s : Sign) : NotBelow (.zero s)
  | infinity : NotBelow (.infinity .positive)
  | finite (m : Nat) (e : Int) (hm : 0 < m) : NotBelow (.finite .positive m e hm)

theorem notBelow_round (spec : Format) (m : Nat) (e : Int) (acc : Accuracy) :
    NotBelow (roundWithAccuracy spec .positive m e acc) := by
  unfold roundWithAccuracy
  dsimp only
  split
  · exact .zero _
  · exact .finite _ _ _

theorem notBelow_normalize (spec : Format) {m : Int} (hm : 0 ≤ m) (e : Int) (s : Sign) :
    NotBelow (UnpackedFloat.normalize spec m e s) := by
  unfold UnpackedFloat.normalize
  split
  · rename_i hlt
    have hneg : m < 0 := Std.compare_eq_lt.mp hlt
    omega
  · exact .zero _
  · exact notBelow_round _ _ _ _

theorem NotBelow.add {spec : Format} {u v : UnpackedFloat} (hu : NotBelow u) (hv : NotBelow v) :
    NotBelow (UnpackedFloat.add spec u v) := by
  cases hu with
  | nan => exact .nan
  | zero s =>
    cases hv with
    | nan => exact .nan
    | zero t =>
      unfold UnpackedFloat.add
      dsimp only
      split
      · exact .zero _
      · exact .zero _
    | infinity => exact .infinity
    | finite => exact .finite _ _ _
  | infinity =>
    cases hv with
    | nan => exact .nan
    | zero t => exact .infinity
    | infinity => exact .infinity
    | finite => exact .infinity
  | finite m e hm =>
    cases hv with
    | nan => exact .nan
    | zero t => exact .finite _ _ _
    | infinity => exact .infinity
    | finite m' e' hm' =>
      apply notBelow_normalize
      exact Int.add_nonneg (Int.natCast_nonneg _) (Int.natCast_nonneg _)

theorem NotBelow.mul {spec : Format} {u v : UnpackedFloat} (hu : NotBelow u) (hv : NotBelow v) :
    NotBelow (UnpackedFloat.mul spec u v) := by
  cases hu with
  | nan => exact .nan
  | zero s =>
    cases hv with
    | nan => exact .nan
    | zero t => exact .zero _
    | infinity => exact .nan
    | finite => exact .zero _
  | infinity =>
    cases hv with
    | nan => exact .nan
    | zero t => exact .nan
    | infinity => exact .infinity
    | finite => exact .infinity
  | finite m e hm =>
    cases hv with
    | nan => exact .nan
    | zero t => exact .zero _
    | infinity => exact .infinity
    | finite => exact notBelow_round _ _ _ _

/-- A quotient whose divisor is a number above zero, or no number. -/
theorem NotBelow.div {spec : Format} {u v : UnpackedFloat} (hu : NotBelow u) (hv : NotBelow v)
    (hzero : ∀ s, v ≠ .zero s) : NotBelow (UnpackedFloat.div spec u v) := by
  cases hv with
  | zero s => exact absurd rfl (hzero s)
  | nan => cases hu <;> exact .nan
  | infinity =>
    cases hu with
    | nan => exact .nan
    | zero s => exact .zero _
    | infinity => exact .nan
    | finite => exact .zero _
  | finite m e hm =>
    cases hu with
    | nan => exact .nan
    | zero s => exact .zero _
    | infinity => exact .infinity
    | finite => exact notBelow_round _ _ _ _

theorem notBelow_ofNat (spec : Format) (n : Nat) : NotBelow (UnpackedFloat.ofNat spec n) :=
  notBelow_normalize spec (Int.natCast_nonneg n) _ _

theorem notBelow_ofScientific (spec : Format) (m : Nat) (e : Int) :
    NotBelow (UnpackedFloat.ofScientific spec m e) := by
  unfold UnpackedFloat.ofScientific
  split
  · exact .zero _
  split
  · exact .infinity
  split
  · exact .zero _
  split
  · exact (NotBelow.finite _ _ _).mul (.finite _ _ _)
  · exact (NotBelow.finite _ _ _).div (.finite _ _ _) (by simp)

/-! ### Packing -/

@[simp] theorem unpackSign_packComponents {spec : Format} {s : Sign}
    {e : BitVec spec.exponentBits} {m : BitVec spec.mantissaBitsWithoutImplicit} :
    unpackSign (packComponents spec s e m) = s.toBitVec := by
  ext i hi
  obtain rfl : i = 0 := by omega
  simp [unpackSign, packComponents, BitVec.getLsbD_append, BitVec.getElem_append]

/-- A positive sign is kept by packing, whatever it does to the rest. -/
theorem notBelow_unpack_positive {spec : Format} (e : BitVec spec.exponentBits)
    (m : BitVec spec.mantissaBitsWithoutImplicit) :
    NotBelow (UnpackedFloat.unpack spec (packComponents spec .positive e m)) := by
  have hsign : Sign.ofBitVec (unpackSign (packComponents spec .positive e m)) = .positive := by
    rw [unpackSign_packComponents]
    rfl
  unfold UnpackedFloat.unpack
  dsimp only
  rw [hsign]
  split
  · split
    · exact .infinity
    · exact .nan
  split
  · split
    · exact .zero _
    · exact .finite _ _ _
  · exact .finite _ _ _

theorem unpack_packedZero (s : Sign) :
    UnpackedFloat.unpack .binary64 (packedZero .binary64 s) = .zero s := by
  cases s with
  | negative => rfl
  | positive => rfl

theorem NotBelow.unpack_pack {u : UnpackedFloat} (hu : NotBelow u) :
    NotBelow (Float.Model.pack u).unpack := by
  change NotBelow (UnpackedFloat.unpack .binary64 (UnpackedFloat.pack .binary64 u))
  cases hu with
  | nan => exact notBelow_unpack_positive _ _
  | zero s =>
    rw [UnpackedFloat.pack, unpack_packedZero]
    exact .zero s
  | infinity => exact notBelow_unpack_positive _ _
  | finite m e hm =>
    unfold UnpackedFloat.pack
    dsimp only
    split
    · exact notBelow_unpack_positive _ _
    split
    · exact notBelow_unpack_positive _ _
    · exact notBelow_unpack_positive _ _

/-! ### Binary64 numbers -/

theorem signed_lt_zero (negative : Bool) (n : Nat) :
    signed negative n < 0 ↔ negative = true ∧ 0 < n := by
  cases negative with
  | false => simp [signed]
  | true => simp [signed, Nat.pos_iff_ne_zero]

theorem zero_lt_signed (negative : Bool) (n : Nat) :
    0 < signed negative n ↔ negative = false ∧ 0 < n := by
  cases negative with
  | false => simp [signed]
  | true => simp [signed]

/-- Whether a number lies below zero is seen at its parts. -/
theorem ltInt_zero (x : Float) : ltInt x 0 =
    match shape x with
    | .nan => false
    | .infinite negative => negative
    | .finite negative m _ => negative && decide (0 < m) := by
  unfold ltInt
  cases shape x with
  | nan => rfl
  | infinite negative => rfl
  | finite negative m e =>
    have hpos : 0 < m * 2 ^ e.toNat ↔ 0 < m := Nat.mul_pos_iff_of_pos_right (Nat.two_pow_pos _)
    dsimp only
    split
    · simp [signed_lt_zero, hpos]
    · simp [signed_lt_zero]

theorem intLt_zero (x : Float) : intLt 0 x =
    match shape x with
    | .nan => false
    | .infinite negative => !negative
    | .finite negative m _ => !negative && decide (0 < m) := by
  unfold intLt
  cases shape x with
  | nan => rfl
  | infinite negative => rfl
  | finite negative m e =>
    have hpos : 0 < m * 2 ^ e.toNat ↔ 0 < m := Nat.mul_pos_iff_of_pos_right (Nat.two_pow_pos _)
    dsimp only
    split
    · simp [zero_lt_signed, hpos]
    · simp [zero_lt_signed]

/-- A number that does not lie below zero is zero or lies above it. -/
theorem zero_le_of_ltInt {x : Float} (hx : ltInt x 0 = false) (hnumber : shape x ≠ .nan) :
    intLt 0 x = true ∨ eqInt x 0 = true := by
  rw [ltInt_zero] at hx
  rw [intLt_zero, eqInt]
  cases hshape : shape x with
  | nan => exact absurd hshape hnumber
  | infinite negative =>
    rw [hshape] at hx
    simpa using hx
  | finite negative m e =>
    rw [hshape] at hx
    rcases Nat.eq_zero_or_pos m with rfl | hpos
    · refine Or.inr ?_
      cases negative <;> simp [isWhole, wholePart, signed]
    · simp only [hpos, decide_true, Bool.and_true] at hx
      simp [hx, hpos]

theorem ltInt_of_zero_le {x : Float} (hx : intLt 0 x = true ∨ eqInt x 0 = true) :
    ltInt x 0 = false := by
  rw [intLt_zero] at hx
  rw [ltInt_zero]
  unfold eqInt at hx
  cases hshape : shape x with
  | nan => rfl
  | infinite negative => simpa [hshape] using hx
  | finite negative m e =>
    rw [hshape] at hx
    rcases hx with hx | hx
    · obtain ⟨hsign, -⟩ : negative = false ∧ 0 < m := by simpa using hx
      simp [hsign]
    · obtain ⟨hwhole, hvalue⟩ : isWhole m e = true ∧ signed negative (wholePart m e) = 0 := by
        simpa using hx
      have hpart : wholePart m e = 0 := by
        cases negative <;> simpa [signed] using hvalue
      have hm : m = 0 := by
        unfold isWhole at hwhole
        unfold wholePart at hpart
        by_cases he : 0 ≤ e
        · rw [if_pos he] at hpart
          exact (Nat.mul_eq_zero.mp hpart).resolve_right (Nat.ne_of_gt (Nat.two_pow_pos _))
        · rw [if_neg he] at hpart
          have hrest : m % 2 ^ (-e).toNat = 0 := by simpa [he] using hwhole
          rw [← Nat.div_add_mod m (2 ^ (-e).toNat), hpart, hrest, Nat.mul_zero]
      simp [hm]

/-- What is one or more lies above zero. -/
theorem intLt_zero_of_one {x : Float} (hx : intLt 1 x = true ∨ eqInt x 1 = true) :
    intLt 0 x = true := by
  rw [intLt_zero]
  unfold intLt eqInt at hx
  cases hshape : shape x with
  | nan => simp [hshape] at hx
  | infinite negative => simpa [hshape] using hx
  | finite negative m e =>
    rw [hshape] at hx
    have hsigned : 0 < signed negative m := by
      rw [zero_lt_signed]
      dsimp only at hx
      rcases hx with hx | hx
      · split at hx
        · have habove : 0 < signed negative (m * 2 ^ e.toNat) :=
            Int.lt_trans Int.one_pos (of_decide_eq_true hx)
          obtain ⟨hsign, hpos⟩ := (zero_lt_signed _ _).mp habove
          exact ⟨hsign, Nat.pos_of_mul_pos_right hpos⟩
        · have habove : (1 : Int) * (2 ^ (-e).toNat : Nat) < signed negative m :=
            of_decide_eq_true hx
          have hpow : 0 < 2 ^ (-e).toNat := Nat.two_pow_pos _
          exact (zero_lt_signed _ _).mp (by omega)
      · obtain ⟨-, hone⟩ : _ ∧ signed negative (wholePart m e) = 1 := by simpa using hx
        obtain ⟨hsign, hpos⟩ := (zero_lt_signed negative (wholePart m e)).mp (by omega)
        refine ⟨hsign, Nat.pos_of_ne_zero ?_⟩
        rintro rfl
        simp [wholePart] at hpos
    obtain ⟨hsign, hpos⟩ := (zero_lt_signed _ _).mp hsigned
    simp [hsign, hpos]

theorem ltInt_zero_iff (x : Float) : ltInt x 0 = false ↔ NotBelow x.toModel.unpack := by
  rw [ltInt_zero]
  unfold shape
  cases x.toModel.unpack with
  | notANumber => exact ⟨fun _ => .nan, fun _ => rfl⟩
  | zero s => exact ⟨fun _ => .zero s, fun _ => Bool.and_false _⟩
  | infinity s =>
    cases s with
    | negative => exact ⟨fun h => (by cases h), fun h => (by cases h)⟩
    | positive => exact ⟨fun _ => .infinity, fun _ => rfl⟩
  | finite s m e hm =>
    cases s with
    | negative =>
      have hbelow : (true && decide (0 < m)) = true := by simpa using hm
      exact ⟨fun h => absurd (hbelow.symm.trans h) (by decide), fun h => (by cases h)⟩
    | positive => exact ⟨fun _ => .finite m e hm, fun _ => rfl⟩

theorem ltInt_ofModel_pack {u : UnpackedFloat} (hu : NotBelow u) :
    ltInt (.ofModel (.pack u)) 0 = false :=
  (ltInt_zero_iff _).mpr hu.unpack_pack

/-- The product of two numbers that do not lie below zero does not. -/
theorem ltInt_mul {x y : Float} (hx : ltInt x 0 = false) (hy : ltInt y 0 = false) :
    ltInt (x * y) 0 = false :=
  ltInt_ofModel_pack (((ltInt_zero_iff x).mp hx).mul ((ltInt_zero_iff y).mp hy))

theorem ltInt_add {x y : Float} (hx : ltInt x 0 = false) (hy : ltInt y 0 = false) :
    ltInt (x + y) 0 = false :=
  ltInt_ofModel_pack (((ltInt_zero_iff x).mp hx).add ((ltInt_zero_iff y).mp hy))

theorem ltInt_of_intLt {x : Float} (hx : intLt 0 x = true) : ltInt x 0 = false := by
  rw [intLt_zero] at hx
  rw [ltInt_zero]
  cases hshape : shape x with
  | nan => rfl
  | infinite negative =>
    rw [hshape] at hx
    simpa using hx
  | finite negative m e =>
    rw [hshape] at hx
    obtain ⟨hsign, -⟩ : negative = false ∧ 0 < m := by simpa using hx
    simp [hsign]

theorem ltInt_div {x y : Float} (hx : ltInt x 0 = false) (hy : intLt 0 y = true) :
    ltInt (x / y) 0 = false := by
  have hzero : ∀ s, y.toModel.unpack ≠ .zero s := by
    intro s hs
    rw [intLt_zero, shape, hs] at hy
    simp at hy
  have hy' := (ltInt_zero_iff y).mp (ltInt_of_intLt hy)
  exact ltInt_ofModel_pack (((ltInt_zero_iff x).mp hx).div hy' hzero)

theorem powersOfTen_pos : ∀ x ∈ Float.exactlyRepresentablePowersOfTen, intLt 0 x = true := by
  decide +kernel

/-- Decimal fractions are not below zero. -/
theorem ltInt_ofScientific (m : Nat) (isNegative : Bool) (e : Nat) :
    ltInt (Float.ofScientific m isNegative e) 0 = false := by
  unfold Float.ofScientific
  split
  · rename_i hfast
    have hindex : e < Float.exactlyRepresentablePowersOfTen.size := Nat.lt_succ_of_le hfast.2
    have hm : ltInt m.toUInt64.toFloat 0 = false := ltInt_ofModel_pack (notBelow_ofNat _ _)
    have hten := powersOfTen_pos _ (Array.getElem_mem hindex)
    dsimp only
    split
    · exact ltInt_div hm hten
    · exact ltInt_mul hm (ltInt_of_intLt hten)
  · exact ltInt_ofModel_pack (notBelow_ofScientific _ _ _)

theorem ltInt_ofNat (n : Nat) : ltInt (Float.ofNat n) 0 = false :=
  ltInt_ofScientific n false 0

theorem ltInt_ofInt {n : Int} (hn : 0 ≤ n) : ltInt (Float.ofInt n) 0 = false := by
  cases n with
  | ofNat n => exact ltInt_ofNat n
  | negSucc n => omega

theorem ltInt_infinity : ltInt infinity 0 = false := by
  decide +kernel

theorem ltInt_ofDyadic (d : Dyadic) : ltInt (ofDyadic false d) 0 = false := by
  unfold ofDyadic
  rw [if_neg Bool.false_ne_true]
  dsimp only
  split
  · exact ltInt_ofNat 0
  split
  · exact ltInt_infinity
  split
  · exact ltInt_ofScientific _ _ _
  · exact ltInt_ofScientific _ _ _

/-- No power of a number above zero lies below it. -/
theorem ltInt_pow? {x y : Float} {n : Nat} (hx : intLt 0 x = true) (h : pow? x n = some y) :
    ltInt y 0 = false := by
  have hbase := ltInt_of_intLt hx
  rw [intLt_zero] at hx
  unfold pow? at h
  split at h
  · cases h
    exact ltInt_ofNat 1
  · cases hshape : shape x with
    | nan =>
      rw [hshape] at h
      cases h
      exact hbase
    | infinite negative =>
      rw [hshape] at h hx
      obtain rfl : negative = false := by simpa using hx
      cases h
      exact ltInt_infinity
    | finite negative m e =>
      rw [hshape] at h hx
      obtain ⟨rfl, -⟩ : negative = false ∧ 0 < m := by simpa using hx
      dsimp only at h
      split at h
      · cases h
      · cases h
        exact ltInt_ofDyadic _

/-! ### Order -/

theorem compare_of_lt {x y : Float} (h : x < y) :
    x.toModel.unpack.compare y.toModel.unpack = some .lt := by
  have hmodel : x.toModel < y.toModel := of_decide_eq_true h
  have hcompare : (x.toModel.unpack.compare y.toModel.unpack == some .lt) = true := hmodel
  exact eq_of_beq hcompare

theorem le_of_compare {x y : Float} {o : Ordering}
    (h : x.toModel.unpack.compare y.toModel.unpack = some o) (ho : o.isLE = true) : x ≤ y := by
  have hle : x.toModel.unpack.le y.toModel.unpack = true := by
    rw [UnpackedFloat.le, h]
    exact ho
  have hmodel : x.toModel ≤ y.toModel := hle
  exact decide_eq_true hmodel

theorem le_of_lt {x y : Float} (h : x < y) : x ≤ y :=
  le_of_compare (compare_of_lt h) rfl

theorem shape_ne_nan_of_lt {x y : Float} (h : x < y) : shape x ≠ .nan := by
  have hcompare := compare_of_lt h
  unfold shape
  cases hx : x.toModel.unpack with
  | notANumber =>
    rw [hx] at hcompare
    cases hcompare
  | _ => exact Shape.noConfusion

/-- A number is at most itself. -/
theorem le_self {x : Float} (hx : shape x ≠ .nan) : x ≤ x := by
  suffices hcompare : x.toModel.unpack.compare x.toModel.unpack = some .eq from
    le_of_compare hcompare rfl
  unfold shape at hx
  cases hunpack : x.toModel.unpack with
  | notANumber =>
    rw [hunpack] at hx
    exact absurd rfl hx
  | infinity s => cases s <;> rfl
  | zero s => rfl
  | finite s m e hm =>
    have hsame : (compare e e).then (compare m m) = .eq := by
      rw [Std.compare_self, Std.compare_self]
      rfl
    cases s with
    | negative => exact congrArg (fun o => some o.swap) hsame
    | positive => exact congrArg some hsame

end ChainIndexer.Binary64
