import ChainIndexer.Proofs.Sign

/-!
How great binary64 numbers are. `Below k` says of a number that it is one, that its mantissa and its
exponent fit the format, and that it is smaller than `2 ^ k`. Rounding adds a bit at most
(`below_roundWithAccuracy`) and packing none (`unpack_pack`), so that a bound for a product or a sum
comes from bounds for its parts. The bounds are coarse: nothing is said about the nearest number.
-/

namespace ChainIndexer.Binary64

open Float.Model Float.Model.UnpackedFloat

/-- A mantissa and an exponent as they stand in a number: the mantissa has 53 bits, or fewer if the
exponent is the least one. -/
structure Fitting (m : Nat) (e : Int) : Prop where
  short : m < 2 ^ 53
  low : -1074 ≤ e
  full : 2 ^ 52 ≤ m ∨ e = -1074

/-- A number whose parts fit and that is smaller than `2 ^ k`, whatever its sign. -/
inductive Below (k : Nat) : UnpackedFloat → Prop
  | zero (s : Sign) : Below k (.zero s)
  | finite (s : Sign) {m : Nat} {e : Int} (hm : 0 < m) (fitting : Fitting m e)
      (bound : totalExponent m e ≤ k) : Below k (.finite s m e hm)

theorem Below.mono {k k' : Nat} (hk : k ≤ k') {u : UnpackedFloat} (h : Below k u) : Below k' u := by
  cases h with
  | zero s => exact .zero s
  | finite s hm fitting bound => exact .finite s hm fitting (by omega)

/-! ### Rounding -/

theorem targetExponent_eq (t : Int) : Format.binary64.targetExponent t = max (t - 53) (-1074) :=
  rfl

theorem mantissa_shiftRight (em : ExtendedMantissa) (count : Nat) :
    (em >>> count).mantissa = em.mantissa / 2 ^ count := by
  induction count with
  | zero => exact (Nat.div_one _).symm
  | succ count ih =>
    change (em >>> count).mantissa / 2 = _
    rw [ih, Nat.div_div_eq_div_mul, Nat.pow_succ]

theorem mantissa_ofMantissaAndAccuracy (m : Nat) (acc : Accuracy) :
    (ExtendedMantissa.ofMantissaAndAccuracy m acc).mantissa = m := by
  cases acc with
  | exact => rfl
  | inexact o => cases o <;> rfl

theorem roundedMantissa_bounds (em : ExtendedMantissa) :
    em.mantissa ≤ em.roundedMantissa ∧ em.roundedMantissa ≤ em.mantissa + 1 := by
  unfold ExtendedMantissa.roundedMantissa
  cases em.accuracy with
  | exact => simp [Accuracy.roundToNearestEven]
  | inexact o =>
    cases o with
    | lt => simp [Accuracy.roundToNearestEven]
    | gt => simp [Accuracy.roundToNearestEven]
    | eq =>
      simp only [Accuracy.roundToNearestEven]
      omega

/-- Where a shift ends, and with which mantissa. -/
theorem shiftToTargetExponent_spec (m : Nat) (e : Int) (acc : Accuracy) :
    let target := max ((m.log2 : Int) + 1 + e - 53) (-1074)
    (shiftToTargetExponent .binary64 m e acc).1.mantissa = m / 2 ^ (target - e).toNat ∧
      (shiftToTargetExponent .binary64 m e acc).2 = e + (target - e).toNat := by
  refine ⟨?_, rfl⟩
  unfold shiftToTargetExponent shiftToExponent
  rw [mantissa_shiftRight, mantissa_ofMantissaAndAccuracy]
  rfl

/-- A mantissa that was rounded may have got one bit too many, which the second shift takes off. -/
private theorem below_settled {m k : Nat} {e : Int} (hm : m ≤ 2 ^ 53) (low : -1074 ≤ e)
    (full : 2 ^ 52 ≤ m ∨ e = -1074) (hk : e + 54 ≤ k) (s : Sign) :
    let shifted := shiftToTargetExponent .binary64 m e .exact
    ∀ hpos : 0 < shifted.1.mantissa, Below k (.finite s shifted.1.mantissa shifted.2 hpos) := by
  intro shifted hpos
  obtain ⟨hmantissa, hexponent⟩ := shiftToTargetExponent_spec m e .exact
  have hne : m ≠ 0 := by
    rintro rfl
    rw [Nat.zero_div] at hmantissa
    exact absurd hmantissa (Nat.ne_of_gt hpos)
  rcases Nat.lt_or_eq_of_le hm with hshort | rfl
  · have hlog : m.log2 < 53 := (Nat.log2_lt hne).mpr hshort
    have hcount : (max ((m.log2 : Int) + 1 + e - 53) (-1074) - e).toNat = 0 := by omega
    rw [hcount, Nat.pow_zero, Nat.div_one] at hmantissa
    rw [hcount] at hexponent
    have hsame : shifted.2 = e := by simpa using hexponent
    have hkept : shifted.1.mantissa = m := hmantissa
    refine .finite s hpos ⟨?_, ?_, ?_⟩ ?_
    · rwa [hkept]
    · rwa [hsame]
    · rwa [hkept, hsame]
    · rw [hkept, hsame, totalExponent]
      omega
  · have hcount : (max (((2 ^ 53).log2 : Int) + 1 + e - 53) (-1074) - e).toNat = 1 := by
      rw [Nat.log2_two_pow]
      omega
    rw [hcount] at hmantissa hexponent
    have hhalf : shifted.1.mantissa = 2 ^ 52 := hmantissa
    have hnext : shifted.2 = e + 1 := hexponent
    refine .finite s hpos ⟨?_, ?_, Or.inl ?_⟩ ?_
    · rw [hhalf]
      decide
    · omega
    · exact hhalf.ge
    · rw [hhalf, hnext, totalExponent, Nat.log2_two_pow]
      omega

/-- Rounding adds one bit at most. The mantissa must not be too short for its exponent, since
rounding only takes bits off. -/
theorem below_roundWithAccuracy {k m : Nat} {e : Int} (hm : 0 < m)
    (full : 2 ^ 52 ≤ m ∨ e ≤ -1074) (hk : totalExponent m e ≤ k) (s : Sign) (acc : Accuracy) :
    Below (k + 1) (roundWithAccuracy .binary64 s m e acc) := by
  obtain ⟨hmantissa, hexponent⟩ := shiftToTargetExponent_spec m e acc
  rw [totalExponent] at hk
  have hne : m ≠ 0 := Nat.ne_of_gt hm
  have hlow := Nat.log2_self_le hne
  have hhigh := Nat.lt_log2_self (n := m)
  have hlong : 52 ≤ m.log2 ∨ e ≤ -1074 := full.imp_left (Nat.le_log2 hne).mpr
  generalize hcount : (max ((m.log2 : Int) + 1 + e - 53) (-1074) - e).toNat = count at *
  have htarget : e + count = max ((m.log2 : Int) + 1 + e - 53) (-1074) := by omega
  have hshort : m / 2 ^ count < 2 ^ 53 := by
    rw [Nat.div_lt_iff_lt_mul (Nat.two_pow_pos _), ← Nat.pow_add]
    exact Nat.lt_of_lt_of_le hhigh (Nat.pow_le_pow_right (by decide) (by omega))
  have hfull : 2 ^ 52 ≤ m / 2 ^ count ∨ e + count = -1074 := by
    by_cases hleast : e + count = -1074
    · exact Or.inr hleast
    · refine Or.inl ((Nat.le_div_iff_mul_le (Nat.two_pow_pos _)).mpr ?_)
      rw [← Nat.pow_add]
      exact Nat.le_trans (Nat.pow_le_pow_right (by decide) (by omega)) hlow
  obtain ⟨hleast, hmost⟩ := roundedMantissa_bounds (shiftToTargetExponent .binary64 m e acc).1
  rw [hmantissa] at hleast hmost
  have hsettled := below_settled (k := k + 1) (e := (shiftToTargetExponent .binary64 m e acc).2)
    (m := (shiftToTargetExponent .binary64 m e acc).1.roundedMantissa) (by omega)
    (by rw [hexponent]; omega)
    (by rw [hexponent]; exact hfull.imp_left fun h => Nat.le_trans h hleast)
    (by rw [hexponent]; omega) s
  unfold roundWithAccuracy
  dsimp only
  split
  · exact .zero s
  · exact hsettled _

theorem log2_shiftLeft {m : Nat} (hm : m ≠ 0) (count : Nat) :
    (m <<< count).log2 = m.log2 + count := by
  induction count with
  | zero => rfl
  | succ count ih =>
    have hne : m <<< count ≠ 0 := by
      rw [Nat.shiftLeft_eq]
      exact Nat.mul_ne_zero hm (Nat.ne_of_gt (Nat.two_pow_pos _))
    rw [Nat.shiftLeft_succ, Nat.log2_two_mul hne, ih, Nat.add_assoc]

theorem below_round {k m : Nat} {e : Int} (hm : 0 < m) (hk : totalExponent m e ≤ k) (s : Sign) :
    Below (k + 1) (UnpackedFloat.round .binary64 s m e) := by
  have hne : m ≠ 0 := Nat.ne_of_gt hm
  unfold UnpackedFloat.round decreaseExponent
  rw [targetExponent_eq, totalExponent] at *
  dsimp only
  generalize hcount : (e - max ((m.log2 : Int) + 1 + e - 53) (-1074)).toNat = count
  have hlog := log2_shiftLeft hne count
  have hpos : 0 < m <<< count := by
    rw [Nat.shiftLeft_eq]
    exact Nat.mul_pos hm (Nat.two_pow_pos _)
  refine below_roundWithAccuracy hpos ?_ ?_ s .exact
  · rw [← Nat.le_log2 (Nat.ne_of_gt hpos), hlog]
    omega
  · rw [totalExponent, hlog]
    push_cast
    omega

theorem below_normalize {k : Nat} {m e : Int} (hk : m ≠ 0 → totalExponent m.natAbs e ≤ k)
    (s : Sign) : Below (k + 1) (UnpackedFloat.normalize .binary64 m e s) := by
  unfold UnpackedFloat.normalize
  split
  · rename_i hlt
    have hneg : m < 0 := Std.compare_eq_lt.mp hlt
    have habs : (-m).toNat = m.natAbs := by omega
    rw [habs]
    exact below_round (by omega) (hk (by omega)) _
  · exact .zero _
  · rename_i hgt
    have hpos : 0 < m := Std.compare_eq_gt.mp hgt
    have habs : m.toNat = m.natAbs := by omega
    rw [habs]
    exact below_round (by omega) (hk (by omega)) _

/-! ### Operations -/

theorem totalExponent_mul {m m' : Nat} (e e' : Int) (hm : 0 < m) (hm' : 0 < m') :
    totalExponent (m * m') (e + e') ≤ totalExponent m e + totalExponent m' e' := by
  have hlog : (m * m').log2 < m.log2 + 1 + (m'.log2 + 1) := by
    rw [Nat.log2_lt (Nat.ne_of_gt (Nat.mul_pos hm hm')), Nat.pow_add]
    exact Nat.mul_lt_mul'' Nat.lt_log2_self Nat.lt_log2_self
  unfold totalExponent
  omega

theorem Below.mul {j k : Nat} {u v : UnpackedFloat} (hu : Below j u) (hv : Below k v) :
    Below (j + k + 1) (UnpackedFloat.mul .binary64 u v) := by
  cases hu with
  | zero s =>
    cases hv with
    | zero t => exact .zero _
    | finite t hm => exact .zero _
  | @finite s m e hm hfit hj =>
    cases hv with
    | zero t => exact .zero _
    | @finite t m' e' hm' hfit' hk =>
      have htotal := totalExponent_mul e e' hm hm'
      refine below_roundWithAccuracy (Nat.mul_pos hm hm') ?_ (by omega) _ _
      rcases hfit.full with hfull | hleast
      · exact Or.inl (Nat.le_trans hfull (Nat.le_mul_of_pos_right m hm'))
      rcases hfit'.full with hfull | hleast'
      · exact Or.inl (Nat.le_trans hfull (Nat.le_mul_of_pos_left m' hm))
      · exact Or.inr (by omega)

/-- A mantissa that is shifted to a smaller exponent stays below the same power of two. -/
theorem shiftLeft_lt {k m : Nat} {e e' : Int} (hm : 0 < m) (hk : totalExponent m e ≤ k)
    (he : e' ≤ e) : m <<< (e - e').toNat < 2 ^ (k - e').toNat := by
  have hne : m ≠ 0 := Nat.ne_of_gt hm
  have hpos : m <<< (e - e').toNat ≠ 0 := by
    rw [Nat.shiftLeft_eq]
    exact Nat.mul_ne_zero hne (Nat.ne_of_gt (Nat.two_pow_pos _))
  rw [← Nat.log2_lt hpos, log2_shiftLeft hne]
  unfold totalExponent at hk
  omega

theorem natAbs_apply_add (s t : Sign) (m m' : Nat) :
    (s.apply (m : Int) + t.apply (m' : Int)).natAbs ≤ m + m' := by
  cases s <;> cases t <;> simp only [Sign.apply] <;> omega

theorem Below.add {k : Nat} {u v : UnpackedFloat} (hu : Below k u) (hv : Below k v) :
    Below (k + 2) (UnpackedFloat.add .binary64 u v) := by
  cases hu with
  | zero s =>
    cases hv with
    | zero t =>
      unfold UnpackedFloat.add
      dsimp only
      split
      · exact .zero _
      · exact .zero _
    | finite t hm hfit hk => exact .finite t hm hfit (by omega)
  | @finite s m e hm hfit hk =>
    cases hv with
    | zero t => exact .finite s hm hfit (by omega)
    | @finite t m' e' hm' hfit' hk' =>
      refine below_normalize (k := k + 1) (fun hne => ?_) _
      have hfirst := shiftLeft_lt hm hk (Int.min_le_left e e')
      have hsecond := shiftLeft_lt hm' hk' (Int.min_le_right e e')
      have hsum := natAbs_apply_add s t (m <<< (e - min e e').toNat) (m' <<< (e' - min e e').toNat)
      have hless : min e e' ≤ k := by
        unfold totalExponent at hk
        omega
      have hdouble : 2 ^ (((k + 1 : Nat) : Int) - min e e').toNat =
          2 * 2 ^ ((k : Int) - min e e').toNat := by
        rw [← Nat.pow_succ']
        congr 1
        omega
      have hbelow : (s.apply ((m <<< (e - min e e').toNat : Nat) : Int) +
          t.apply ((m' <<< (e' - min e e').toNat : Nat) : Int)).natAbs <
            2 ^ (((k + 1 : Nat) : Int) - min e e').toNat := by omega
      rw [← Nat.log2_lt (Int.natAbs_ne_zero.mpr hne)] at hbelow
      unfold totalExponent
      omega

/-! ### Packing -/

/-- The bit that is not packed. -/
theorem toNat_implicit (v : BitVec 52) : (1#1 ++ v).toNat = 2 ^ 52 + v.toNat := by
  rw [BitVec.toNat_append, ← Nat.shiftLeft_add_eq_or_of_lt v.isLt]
  rfl

theorem ofBitVec_toBitVec (s : Sign) : Sign.ofBitVec s.toBitVec = s := by
  cases s <;> rfl

theorem unpack_normal (s : Sign) {code : BitVec 11} (v : BitVec 52) (hspecial : code ≠ -1#11)
    (hleast : code ≠ 0#11) (hpos : 0 < (1#1 ++ v).toNat) :
    UnpackedFloat.unpack .binary64 (packComponents .binary64 s code v) =
      .finite s (1#1 ++ v).toNat (code.toNat - 1075) hpos := by
  unfold UnpackedFloat.unpack
  simp only [unpackMantissa_packComponents, unpackExponent_packComponents,
    unpackSign_packComponents, ofBitVec_toBitVec]
  rw [if_neg hspecial, if_neg hleast]
  rfl

theorem unpack_subnormal (s : Sign) {v : BitVec 52} (hv : v ≠ 0#52) (hpos : 0 < v.toNat) :
    UnpackedFloat.unpack .binary64 (packComponents .binary64 s 0#11 v) =
      .finite s v.toNat (-1074) hpos := by
  have hspecial : 0#11 ≠ -1#11 := by decide
  unfold UnpackedFloat.unpack
  simp only [unpackMantissa_packComponents, unpackExponent_packComponents,
    unpackSign_packComponents, ofBitVec_toBitVec]
  rw [if_neg hspecial, if_pos trivial, dif_neg hv]
  rfl

/-- Numbers that are not too great are packed as they are. -/
theorem unpack_pack {k : Nat} (hk : k ≤ 1024) {u : UnpackedFloat} (h : Below k u) :
    (Float.Model.pack u).unpack = u := by
  change UnpackedFloat.unpack .binary64 (UnpackedFloat.pack .binary64 u) = u
  cases h with
  | zero s => exact unpack_packedZero s
  | @finite s m e hm hfit hbound =>
    have hne : m ≠ 0 := Nat.ne_of_gt hm
    obtain ⟨short, low, full⟩ := hfit
    have hlong : 2 ^ 52 ≤ m ↔ 52 ≤ m.log2 := (Nat.le_log2 hne).symm
    have hlog : m.log2 < 53 := (Nat.log2_lt hne).mpr short
    unfold totalExponent at hbound
    have hfits : ¬ 2 ^ 11 ≤ (e + 1023 + 52).toNat + 1 := by omega
    change UnpackedFloat.unpack .binary64 (if 2 ^ 11 ≤ (e + 1023 + 52).toNat + 1 then _
      else if m.log2 + 1 = 53 then _ else _) = _
    rw [if_neg hfits]
    by_cases hnormal : 2 ^ 52 ≤ m
    · have hbits : m.log2 + 1 = 53 := by omega
      have hcode : (BitVec.ofNat 11 (e + 1023 + 52).toNat).toNat = (e + 1023 + 52).toNat :=
        Nat.mod_eq_of_lt (by omega)
      have hspecial : BitVec.ofNat 11 (e + 1023 + 52).toNat ≠ -1#11 := by
        intro h
        have hnat : (e + 1023 + 52).toNat = 2047 := hcode.symm.trans (congrArg BitVec.toNat h)
        omega
      have hleast : BitVec.ofNat 11 (e + 1023 + 52).toNat ≠ 0#11 := by
        intro h
        have hnat : (e + 1023 + 52).toNat = 0 := hcode.symm.trans (congrArg BitVec.toNat h)
        omega
      have hmantissa : (1#1 ++ BitVec.ofNat 52 m).toNat = m := by
        rw [toNat_implicit, BitVec.toNat_ofNat, Nat.mod_eq_sub_mod hnormal,
          Nat.mod_eq_of_lt (by omega)]
        omega
      rw [if_pos hbits]
      refine (unpack_normal s _ hspecial hleast (by rwa [hmantissa])).trans ?_
      congr 1
      rw [hcode]
      omega
    · obtain rfl : e = -1074 := full.resolve_left hnormal
      have hbits : ¬ m.log2 + 1 = 53 := by omega
      have hmantissa : (BitVec.ofNat 52 m).toNat = m := Nat.mod_eq_of_lt (by omega)
      have hnonzero : BitVec.ofNat 52 m ≠ 0#52 := by
        intro h
        exact hne (hmantissa.symm.trans (congrArg BitVec.toNat h))
      rw [if_neg hbits]
      refine (unpack_subnormal s hnonzero (by rwa [hmantissa])).trans ?_
      congr 1

/-- The parts of every number fit. -/
theorem fitting_of_unpack {b : BitVec Format.binary64.numBits} {s : Sign} {m : Nat} {e : Int}
    {hm : 0 < m} (h : UnpackedFloat.unpack .binary64 b = .finite s m e hm) : Fitting m e := by
  have hbias : (Format.binary64.exponentBias : Int) = 1023 := rfl
  have hbits : (Format.binary64.mantissaBitsWithoutImplicit : Int) = 52 := rfl
  have hshort : (unpackMantissa b).toNat < 2 ^ 52 := (unpackMantissa b).isLt
  unfold UnpackedFloat.unpack at h
  dsimp only at h
  split at h
  · split at h <;> cases h
  split at h
  · rename_i hcode
    split at h
    · cases h
    · cases h
      have hleast : (unpackExponent b).toNat = 0 := congrArg BitVec.toNat hcode
      exact ⟨by omega, by omega, Or.inr (by omega)⟩
  · rename_i hcode
    cases h
    have hleast : (unpackExponent b).toNat ≠ 0 :=
      fun hzero => hcode (BitVec.eq_of_toNat_eq hzero)
    have himplicit : (1#1 ++ unpackMantissa b).toNat = 2 ^ 52 + (unpackMantissa b).toNat :=
      toNat_implicit _
    exact ⟨by omega, by omega, Or.inl (by omega)⟩

/-! ### Binary64 numbers -/

/-- A binary64 number that is smaller than `2 ^ k`, whatever its sign. -/
def Small (k : Nat) (x : Float) : Prop :=
  Below k x.toModel.unpack

theorem Small.mono {k k' : Nat} (hk : k ≤ k') {x : Float} (h : Small k x) : Small k' x :=
  Below.mono hk h

theorem Small.mul {j k : Nat} {x y : Float} (hx : Small j x) (hy : Small k y)
    (h : j + k + 1 ≤ 1024) : Small (j + k + 1) (x * y) := by
  have hproduct := Below.mul hx hy
  change Below _ (Float.Model.pack (UnpackedFloat.mul .binary64 x.toModel.unpack _)).unpack
  rwa [unpack_pack h hproduct]

theorem Small.add {k : Nat} {x y : Float} (hx : Small k x) (hy : Small k y) (h : k + 2 ≤ 1024) :
    Small (k + 2) (x + y) := by
  have hsum := Below.add hx hy
  change Below _ (Float.Model.pack (UnpackedFloat.add .binary64 x.toModel.unpack _)).unpack
  rwa [unpack_pack h hsum]

theorem totalExponent_le_iff {k m : Nat} {e : Int} (hm : 0 < m) : totalExponent m e ≤ k ↔
    if 0 ≤ e then m * 2 ^ e.toNat < 2 ^ k else m < 2 ^ k * 2 ^ (-e).toNat := by
  have hne : m ≠ 0 := Nat.ne_of_gt hm
  unfold totalExponent
  split
  · have hpos : m * 2 ^ e.toNat ≠ 0 := Nat.mul_ne_zero hne (Nat.ne_of_gt (Nat.two_pow_pos _))
    rw [← Nat.log2_lt hpos, ← Nat.shiftLeft_eq, log2_shiftLeft hne]
    omega
  · rw [← Nat.pow_add, ← Nat.log2_lt hne]
    omega

theorem signed_lt {negative : Bool} {n bound : Nat} (hbound : 0 < bound) :
    signed negative n < bound ↔ negative = true ∨ n < bound := by
  cases negative with
  | false => simp [signed]
  | true =>
    simp only [signed, if_true, true_or, iff_true]
    omega

/-- Whether a number lies below a power of two is seen at its sign and its first bit. -/
theorem ltInt_two_pow (x : Float) (k : Nat) : ltInt x (2 ^ k : Nat) = true ↔
    match x.toModel.unpack with
    | .notANumber => False
    | .infinity s => s = .negative
    | .zero _ => True
    | .finite s m e _ => s = .negative ∨ totalExponent m e ≤ k := by
  have hsign : ∀ s : Sign, (s == .negative) = true ↔ s = .negative := fun s => beq_iff_eq
  have hpow : 0 < 2 ^ k := Nat.two_pow_pos k
  unfold ltInt shape
  cases x.toModel.unpack with
  | notANumber => simp
  | infinity s => exact hsign s
  | zero s =>
    refine ⟨fun _ => trivial, fun _ => decide_eq_true ?_⟩
    rw [← Nat.cast_mul, signed_lt (Nat.mul_pos hpow (Nat.two_pow_pos _))]
    exact Or.inr (Nat.mul_pos hpow (Nat.two_pow_pos _))
  | finite s m e hm =>
    dsimp only
    rw [totalExponent_le_iff hm]
    split
    · rw [decide_eq_true_iff, signed_lt hpow, hsign]
    · rw [decide_eq_true_iff, ← Nat.cast_mul,
        signed_lt (Nat.mul_pos hpow (Nat.two_pow_pos _)), hsign]

theorem Small.ltInt {k : Nat} {x : Float} (h : Small k x) : ltInt x (2 ^ k : Nat) = true := by
  rw [ltInt_two_pow]
  unfold Small at h
  generalize x.toModel.unpack = u at h
  cases h with
  | zero s => trivial
  | finite s hm fitting bound => exact Or.inr bound

theorem Small.of_ltInt {k : Nat} {x : Float} (hzero : Binary64.ltInt x 0 = false)
    (h : Binary64.ltInt x (2 ^ k : Nat) = true) : Small k x := by
  have hsign := (ltInt_zero_iff x).mp hzero
  rw [ltInt_two_pow] at h
  unfold Small
  cases hunpack : x.toModel.unpack with
  | notANumber =>
    rw [hunpack] at h
    cases h
  | infinity s =>
    rw [hunpack] at h hsign
    cases hsign
    cases h
  | zero s => exact .zero s
  | finite s m e hm =>
    rw [hunpack] at h hsign
    cases hsign
    exact .finite _ hm (fitting_of_unpack hunpack) (h.resolve_left Sign.noConfusion)

/-- Numbers are compared by their exponents first, as the first bits of the mantissas bear out. -/
theorem totalExponent_le_of_compare {m m' : Nat} {e e' : Int} (hm : 0 < m) (h : Fitting m e)
    (h' : Fitting m' e') (hcompare : (compare e e').then (compare m m') = .lt) :
    totalExponent m e ≤ totalExponent m' e' := by
  have hne : m ≠ 0 := Nat.ne_of_gt hm
  have hlog : m.log2 < 53 := (Nat.log2_lt hne).mpr h.short
  unfold totalExponent
  rcases Ordering.then_eq_lt.mp hcompare with hexponent | ⟨hexponent, hmantissa⟩
  · have hlt : e < e' := Std.compare_eq_lt.mp hexponent
    have hlow := h.low
    have hfull : 2 ^ 52 ≤ m' := h'.full.resolve_right (by omega)
    have hlog' : 52 ≤ m'.log2 := (Nat.le_log2 (by omega)).mpr hfull
    omega
  · have heq : e = e' := Std.compare_eq_iff_eq.mp hexponent
    have hlt : m < m' := Std.compare_eq_lt.mp hmantissa
    have hlog' : m.log2 ≤ m'.log2 :=
      (Nat.le_log2 (by omega)).mpr (Nat.le_trans (Nat.log2_self_le hne) hlt.le)
    omega

/-- What is not below zero, but below a number that is not great, is not great either. -/
theorem Small.of_lt {k : Nat} {x y : Float} (hzero : Binary64.ltInt x 0 = false) (h : x < y)
    (hy : Small k y) : Small k x := by
  have hsign := (ltInt_zero_iff x).mp hzero
  have hcompare := compare_of_lt h
  unfold Small at *
  generalize y.toModel.unpack = v at hcompare hy
  cases hunpack : x.toModel.unpack with
  | notANumber =>
    rw [hunpack] at hcompare
    cases hcompare
  | infinity s =>
    rw [hunpack] at hcompare hsign
    cases hsign
    cases hy <;> cases hcompare
  | zero s => exact .zero s
  | finite s m e hm =>
    rw [hunpack] at hcompare hsign
    cases hsign
    have hfit := fitting_of_unpack hunpack
    cases hy with
    | zero t => cases hcompare
    | @finite t m' e' hm' hfit' hbound =>
      cases t with
      | negative => cases hcompare
      | positive =>
        have hle := totalExponent_le_of_compare hm hfit hfit' (Option.some.inj hcompare)
        exact .finite _ hm hfit (Int.le_trans hle hbound)

theorem Small.shape_ne_nan {k : Nat} {x : Float} (h : Small k x) : shape x ≠ .nan := by
  unfold Small at h
  unfold shape
  generalize x.toModel.unpack = u at h
  cases h <;> exact Shape.noConfusion

/-- What is not below zero is not below less than zero. -/
theorem ltInt_of_nonpos {x : Float} {n : Int} (hx : ltInt x 0 = false) (hn : n ≤ 0) :
    ltInt x n = false := by
  rw [ltInt_zero] at hx
  unfold ltInt
  cases hshape : shape x with
  | nan => rfl
  | infinite negative =>
    rw [hshape] at hx
    exact hx
  | finite negative m e =>
    rw [hshape] at hx
    have hsign : negative = true → m = 0 := by simpa using hx
    have habove : ∀ c, 0 ≤ signed negative (m * c) := by
      intro c
      rw [← Int.not_lt, signed_lt_zero]
      rintro ⟨hnegative, hpos⟩
      rw [hsign hnegative, Nat.zero_mul] at hpos
      exact Nat.lt_irrefl 0 hpos
    dsimp only
    split
    · exact decide_eq_false (Int.not_lt.mpr (Int.le_trans hn (habove _)))
    · have hbound : n * (2 ^ (-e).toNat : Nat) ≤ 0 :=
        Int.mul_nonpos_of_nonpos_of_nonneg hn (Int.natCast_nonneg _)
      have hself := habove 1
      rw [Nat.mul_one] at hself
      exact decide_eq_false (Int.not_lt.mpr (Int.le_trans hbound hself))

end ChainIndexer.Binary64
