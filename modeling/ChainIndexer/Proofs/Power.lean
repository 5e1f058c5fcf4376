import ChainIndexer.Number.Binary64
import Mathlib.Algebra.Order.Field.Power
import Mathlib.Data.Rat.Cast.Order
import Mathlib.Tactic.Linarith
import Mathlib.Tactic.NormNum
import Mathlib.Tactic.Positivity
import Mathlib.Tactic.Ring

/-!
Which powers of a binary64 number are out of range. The power with every product rounded down is a
lower bound of the exact one, the power with every product rounded up is an upper bound
(`powFrom_related`, once for both orders and for equality), so whatever `isPowOver` looks at, what
it decides is a fact about the exact power (`isPowOver_iff`).
-/

namespace ChainIndexer.Binary64

theorem limit_bounds : (2 : ℚ) ^ (1023 : Int) < limit ∧ (limit : ℚ) < 2 ^ (1024 : Int) := by
  have hlow : 2 ^ 1023 < limit := by decide +kernel
  have hhigh : limit < 2 ^ 1024 := by decide +kernel
  have hpow : ∀ n : Nat, ((2 ^ n : Nat) : ℚ) = 2 ^ n := fun n => Nat.cast_pow 2 n
  rw [zpow_ofNat, zpow_ofNat, ← hpow, ← hpow]
  exact ⟨Nat.cast_lt.mpr hlow, Nat.cast_lt.mpr hhigh⟩

namespace Dyadic

/-- The number that a dyadic fraction stands for. -/
def value (d : Dyadic) : ℚ :=
  d.mantissa * 2 ^ d.exponent

theorem value_nonneg (d : Dyadic) : 0 ≤ d.value := by
  unfold value
  positivity

@[simp] theorem value_one : value ⟨1, 0⟩ = 1 := by
  simp [value]

@[simp] theorem value_mul (a b : Dyadic) : (a.mul b).value = a.value * b.value := by
  unfold value mul
  push_cast
  rw [zpow_add₀ (by norm_num)]
  ring

/-! ### Rounding to a width -/

/-- A mantissa that is cut falls into what is kept and what is lost. -/
theorem value_cut (settle : Nat → Nat) (d : Dyadic) :
    ∃ kept lost s : Nat, d.mantissa = kept * 2 ^ s + lost ∧ lost < 2 ^ s ∧
      (d.cut settle).value =
        ((if lost = 0 then kept else settle kept) * 2 ^ s : Nat) * 2 ^ d.exponent := by
  refine ⟨d.mantissa / 2 ^ (d.mantissa.log2 + 1 - width),
    d.mantissa % 2 ^ (d.mantissa.log2 + 1 - width), d.mantissa.log2 + 1 - width, ?_, ?_, ?_⟩
  · rw [Nat.mul_comm, Nat.div_add_mod]
  · exact Nat.mod_lt _ (by positivity)
  · unfold value cut
    dsimp only
    rw [zpow_add₀ (by norm_num), zpow_natCast]
    push_cast
    ring

theorem value_floor_le (d : Dyadic) : d.floor.value ≤ d.value := by
  obtain ⟨kept, lost, s, hm, -, hvalue⟩ := value_cut id d
  have hle : (if lost = 0 then kept else id kept) * 2 ^ s ≤ d.mantissa := by
    rw [hm, id, ite_self]
    exact Nat.le_add_right _ _
  rw [floor, hvalue, value]
  gcongr

theorem value_le_ceiling (d : Dyadic) : d.value ≤ d.ceiling.value := by
  obtain ⟨kept, lost, s, hm, hlost, hvalue⟩ := value_cut (· + 1) d
  have hle : d.mantissa ≤ (if lost = 0 then kept else kept + 1) * 2 ^ s := by
    rw [hm]
    split
    · omega
    · rw [Nat.add_mul]
      omega
  rw [ceiling, hvalue, value]
  gcongr

/-! ### Powers -/

/-- A relation that is kept by products of numbers that are not negative. -/
structure Compatible (R : ℚ → ℚ → Prop) : Prop where
  refl : ∀ q, R q q
  trans : ∀ {p q r}, R p q → R q r → R p r
  mul : ∀ {p q r s}, 0 ≤ p → 0 ≤ q → 0 ≤ r → 0 ≤ s → R p q → R r s → R (p * r) (q * s)

theorem compatible_le : Compatible (· ≤ ·) where
  refl := le_refl
  trans := le_trans
  mul _ hq hr _ hpq hrs := mul_le_mul hpq hrs hr hq

theorem compatible_ge : Compatible (· ≥ ·) where
  refl := le_refl
  trans hpq hqr := le_trans hqr hpq
  mul hp _ _ hs hpq hrs := mul_le_mul hpq hrs hs hp

theorem compatible_eq : Compatible (· = ·) where
  refl _ := rfl
  trans := Eq.trans
  mul _ _ _ _ hpq hrs := by rw [hpq, hrs]

/-- If every rounding stands in a relation to what is rounded, so does a power to the exact one. -/
theorem powFrom_related {R : ℚ → ℚ → Prop} (hR : Compatible R) {round : Dyadic → Dyadic}
    (hround : ∀ d, R (round d).value d.value) (d : Dyadic) {fuel n : Nat} (hn : n ≤ fuel) :
    R (d.powFrom round fuel n).value (d.value ^ n) := by
  induction fuel generalizing n with
  | zero =>
    obtain rfl : n = 0 := by omega
    simpa [powFrom] using hR.refl 1
  | succ fuel ih =>
    rcases Nat.eq_zero_or_pos n with rfl | hpos
    · simpa [powFrom] using hR.refl 1
    have hhalf := ih (n := n / 2) (by omega)
    have hsquare : R (round ((d.powFrom round fuel (n / 2)).mul (d.powFrom round fuel (n / 2)))).value
        (d.value ^ (n / 2) * d.value ^ (n / 2)) := by
      refine hR.trans (hround _) ?_
      rw [value_mul]
      have hpow : 0 ≤ d.value ^ (n / 2) := pow_nonneg d.value_nonneg _
      exact hR.mul (value_nonneg _) hpow (value_nonneg _) hpow hhalf hhalf
    rw [powFrom, if_neg (by omega)]
    dsimp only
    split
    · -- an even power is the square of its half
      have hn' : d.value ^ (n / 2) * d.value ^ (n / 2) = d.value ^ n := by
        rw [← pow_add]
        congr 1
        omega
      rwa [hn'] at hsquare
    · -- an odd one takes another factor
      have hn' : d.value ^ (n / 2) * d.value ^ (n / 2) * d.value = d.value ^ n := by
        rw [← pow_add, ← pow_succ]
        congr 1
        omega
      refine hR.trans (hround _) ?_
      rw [value_mul, ← hn']
      have hpow : 0 ≤ d.value ^ (n / 2) := pow_nonneg d.value_nonneg _
      exact hR.mul (value_nonneg _) (mul_nonneg hpow hpow) d.value_nonneg d.value_nonneg hsquare
        (hR.refl _)

theorem value_pow_floor_le (d : Dyadic) (n : Nat) : (d.pow floor n).value ≤ d.value ^ n :=
  powFrom_related compatible_le value_floor_le d (Nat.le_refl n)

theorem value_le_pow_ceiling (d : Dyadic) (n : Nat) : d.value ^ n ≤ (d.pow ceiling n).value :=
  powFrom_related compatible_ge value_le_ceiling d (Nat.le_refl n)

theorem value_pow_id (d : Dyadic) (n : Nat) : (d.pow id n).value = d.value ^ n :=
  powFrom_related compatible_eq (fun _ => rfl) d (Nat.le_refl n)

/-! ### The range -/

/-- A fraction lies between the power of two at its first bit and the next one. -/
theorem value_bounds {d : Dyadic} (hd : d.mantissa ≠ 0) :
    (2 : ℚ) ^ ((d.mantissa.log2 : Int) + d.exponent) ≤ d.value ∧
      d.value < 2 ^ ((d.mantissa.log2 : Int) + d.exponent + 1) := by
  have hlow : ((2 ^ d.mantissa.log2 : Nat) : ℚ) ≤ d.mantissa :=
    Nat.cast_le.mpr (Nat.log2_self_le hd)
  have hhigh : (d.mantissa : ℚ) < (2 ^ (d.mantissa.log2 + 1) : Nat) :=
    Nat.cast_lt.mpr Nat.lt_log2_self
  have hpos : (0 : ℚ) < 2 ^ d.exponent := by positivity
  constructor
  · rw [zpow_add₀ (by norm_num), zpow_natCast]
    push_cast at hlow
    exact mul_le_mul_of_nonneg_right hlow hpos.le
  · rw [add_right_comm, zpow_add₀ (by norm_num), ← Nat.cast_succ, zpow_natCast]
    push_cast at hhigh
    exact mul_lt_mul_of_pos_right hhigh hpos

theorem value_of_nonneg {d : Dyadic} (h : 0 ≤ d.exponent) :
    d.value = (d.mantissa * 2 ^ d.exponent.toNat : Nat) := by
  unfold value
  push_cast
  rw [← zpow_natCast, Int.toNat_of_nonneg h]

theorem value_of_neg {d : Dyadic} (h : d.exponent < 0) :
    d.value = d.mantissa / 2 ^ (-d.exponent).toNat := by
  unfold value
  rw [← zpow_natCast, Int.toNat_of_nonneg (by omega), zpow_neg, div_inv_eq_mul]

/-- What is out of range is what is not below the limit. -/
theorem isOver_iff (d : Dyadic) : d.isOver = true ↔ (limit : ℚ) ≤ d.value := by
  obtain ⟨hlimit, hlimit'⟩ := limit_bounds
  unfold isOver
  dsimp only
  by_cases hd : d.mantissa = 0
  · have hvalue : d.value = 0 := by simp [value, hd]
    have hpos : (0 : ℚ) < limit := lt_trans (by positivity) hlimit
    simp only [hd, true_or, if_true, hvalue]
    constructor
    · exact fun h => absurd h Bool.false_ne_true
    · exact fun h => absurd h (not_le.mpr hpos)
  obtain ⟨hlow, hhigh⟩ := value_bounds hd
  split
  · rename_i h
    have htop : (d.mantissa.log2 : Int) + d.exponent + 1 ≤ 1023 := by omega
    have hbelow : d.value < limit := by
      refine lt_of_lt_of_le hhigh (le_trans ?_ hlimit.le)
      exact zpow_le_zpow_right₀ (by norm_num) htop
    exact ⟨fun h => absurd h Bool.false_ne_true, fun h => absurd h (not_le.mpr hbelow)⟩
  split
  · rename_i _ htop
    have habove : (limit : ℚ) ≤ d.value := by
      refine le_trans hlimit'.le (le_trans ?_ hlow)
      exact zpow_le_zpow_right₀ (by norm_num) (by omega)
    exact ⟨fun _ => habove, fun _ => rfl⟩
  -- the first bit of the fraction is the first one of the limit, so the two are compared exactly
  split
  · rename_i he
    rw [value_of_nonneg he, Nat.cast_le, decide_eq_true_iff]
  · rename_i he
    have hpos : (0 : ℚ) < 2 ^ (-d.exponent).toNat := by positivity
    rw [value_of_neg (Int.not_le.mp he), le_div_iff₀ hpos, decide_eq_true_iff,
      ← Nat.cast_le (α := ℚ)]
    push_cast
    rfl

/-- A power is decided to be out of range just if the exact power is. -/
theorem isPowOver_iff (d : Dyadic) (n : Nat) :
    d.isPowOver n = true ↔ (limit : ℚ) ≤ d.value ^ n := by
  unfold isPowOver
  rw [Bool.or_eq_true, Bool.and_eq_true, isOver_iff, isOver_iff, isOver_iff, value_pow_id]
  constructor
  · rintro (h | ⟨-, h⟩)
    · exact le_trans h (value_pow_floor_le d n)
    · exact h
  · intro h
    exact Or.inr ⟨le_trans h (value_le_pow_ceiling d n), h⟩

end Dyadic

/-- A power is missing just if the number is finite and the exact power is out of range. -/
theorem pow?_eq_none_iff (x : Float) (n : Nat) :
    pow? x n = none ↔ ∃ negative m e, shape x = .finite negative m e ∧
      (limit : ℚ) ≤ Dyadic.value ⟨m, e⟩ ^ n := by
  unfold pow?
  split
  · rename_i hn
    have hone : ¬ (limit : ℚ) ≤ 1 := by
      refine not_le.mpr (lt_trans ?_ limit_bounds.1)
      exact one_lt_zpow₀ (by norm_num) (by norm_num)
    simp [hn, hone]
  · cases hx : shape x with
    | nan => simp
    | infinite negative => simp
    | finite negative m e => simp [← Dyadic.isPowOver_iff]

/-! ### Powers as binary64 numbers -/

/-- Small numbers need no rounding. -/
theorem nearest_of_lt {n : Nat} (hn : n < 2 ^ 53) : nearest n = n := by
  have hcut : n.log2 + 1 - 53 = 0 := by
    rcases Nat.eq_zero_or_pos n with rfl | hpos
    · rfl
    · have hlog : n.log2 < 53 := (Nat.log2_lt (by omega)).mpr hn
      omega
  simp [nearest, hcut, Nat.mod_one]

/-- The first bit of a number stays what it is, or is carried over. -/
theorem le_nearest {n : Nat} (hn : 2 ^ 53 ≤ n) : 2 ^ 53 ≤ nearest n := by
  have hne : n ≠ 0 := by omega
  have hlog : 53 ≤ n.log2 := (Nat.le_log2 hne).mpr hn
  obtain ⟨cut, hcut⟩ : ∃ cut, n.log2 = cut + 52 := ⟨n.log2 - 52, by omega⟩
  have hkept : 2 ^ 52 ≤ n / 2 ^ cut := by
    rw [Nat.le_div_iff_mul_le (by positivity), ← Nat.pow_add, Nat.add_comm, ← hcut]
    exact Nat.log2_self_le hne
  have hrounded : ∀ isUp : Prop, ∀ _ : Decidable isUp,
      2 ^ 52 ≤ if isUp then n / 2 ^ cut + 1 else n / 2 ^ cut := by
    intro isUp _
    split
    · omega
    · exact hkept
  unfold nearest
  rw [show n.log2 + 1 - 53 = cut by omega]
  calc 2 ^ 53 ≤ 2 ^ 52 * 2 ^ cut := by
        rw [← Nat.pow_add]
        exact Nat.pow_le_pow_right (by decide) (by omega)
    _ ≤ _ := Nat.mul_le_mul_right _ (hrounded _ _)

/-- Rounding does not move a number past a small one. -/
theorem le_nearest_iff {m n : Nat} (hm : m ≤ 2 ^ 53) : m ≤ nearest n ↔ m ≤ n := by
  rcases Nat.lt_or_ge n (2 ^ 53) with hn | hn
  · rw [nearest_of_lt hn]
  · exact ⟨fun _ => le_trans hm hn, fun _ => le_trans hm (le_nearest hn)⟩

end ChainIndexer.Binary64
