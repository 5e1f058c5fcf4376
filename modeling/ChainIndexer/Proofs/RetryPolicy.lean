import ChainIndexer.RetryPolicy
import ChainIndexer.Proofs.Power
import ChainIndexer.Proofs.Sign

/-!
The delays of a retry policy. The power of the factor is made before the greatest delay bounds it,
so a delay may be out of range although its bound is not: `Exceeds` lists every way in which that
happens, for any policy (`delay_eq_error_iff`). A delay that is in range lies between zero and the
greatest delay if the policy has no negative delay and does not shrink (`delay_bounds`).
-/

namespace ChainIndexer

/-! ### Amounts -/

namespace Amount

/-- Whether one amount is at most another, compared without rounding. -/
def le : Amount → Amount → Bool
  | .whole a, .whole b => a.toInt ≤ b.toInt
  | .whole a, .real y => Binary64.intLt a.toInt y || Binary64.eqInt y a.toInt
  | .real x, .whole b => Binary64.ltInt x b.toInt || Binary64.eqInt x b.toInt
  | .real x, .real y => x ≤ y

instance : LE Amount := ⟨fun a b => a.le b = true⟩

instance (a b : Amount) : Decidable (a ≤ b) := inferInstanceAs (Decidable (a.le b = true))

theorem le_of_lt {a b : Amount} (h : a.lt b = true) : a ≤ b := by
  change a.le b = true
  cases a with
  | whole a =>
    cases b with
    | whole b =>
      have hlt : a.toInt < b.toInt := of_decide_eq_true h
      exact decide_eq_true hlt.le
    | real y =>
      have hlt : Binary64.intLt a.toInt y = true := h
      rw [le, hlt, Bool.true_or]
  | real x =>
    cases b with
    | whole b =>
      have hlt : Binary64.ltInt x b.toInt = true := h
      rw [le, hlt, Bool.true_or]
    | real y =>
      have hlt : x < y := of_decide_eq_true h
      exact decide_eq_true (Binary64.le_of_lt hlt)

/-- An amount that is compared with zero is no missing number. -/
theorem le_self {a : Amount} (h : ofInt 0 ≤ a) : a ≤ a := by
  change a.le a = true
  cases a with
  | whole a => exact decide_eq_true (Int.le_refl a.toInt)
  | real x =>
    have hzero : (Binary64.intLt 0 x || Binary64.eqInt x 0) = true := h
    refine decide_eq_true (Binary64.le_self ?_)
    intro hnan
    simp [Binary64.intLt, Binary64.eqInt, hnan] at hzero

/-- What lies below another amount and not below zero is zero or above. -/
theorem zero_le_of_lt {a b : Amount} (ha : a.lt (ofInt 0) = false) (hab : a.lt b = true) :
    ofInt 0 ≤ a := by
  change (ofInt 0).le a = true
  cases a with
  | whole a =>
    have hnot : ¬ a.toInt < 0 := of_decide_eq_false ha
    exact decide_eq_true (Int.not_lt.mp hnot)
  | real x =>
    have hnumber : Binary64.shape x ≠ .nan := by
      intro hnan
      cases b with
      | whole b =>
        have hlt : Binary64.ltInt x b.toInt = true := hab
        simp [Binary64.ltInt, hnan] at hlt
      | real y =>
        have hlt : x < y := of_decide_eq_true hab
        exact Binary64.shape_ne_nan_of_lt hlt hnan
    have hcases := Binary64.zero_le_of_ltInt ha hnumber
    exact (Bool.or_eq_true _ _).mpr hcases

theorem not_lt_zero {a : Amount} (h : ofInt 0 ≤ a) : a.lt (ofInt 0) = false := by
  cases a with
  | whole a =>
    have hle : 0 ≤ a.toInt := of_decide_eq_true h
    exact decide_eq_false (Int.not_lt.mpr hle)
  | real x =>
    have hcases : (Binary64.intLt 0 x || Binary64.eqInt x 0) = true := h
    exact Binary64.ltInt_of_zero_le ((Bool.or_eq_true _ _).mp hcases)

theorem zero_lt_of_one_le {a : Amount} (h : ofInt 1 ≤ a) : (ofInt 0).lt a = true := by
  cases a with
  | whole a =>
    have hle : 1 ≤ a.toInt := of_decide_eq_true h
    exact decide_eq_true (Int.lt_of_lt_of_le Int.one_pos hle)
  | real x =>
    have hcases : (Binary64.intLt 1 x || Binary64.eqInt x 1) = true := h
    exact Binary64.intLt_zero_of_one ((Bool.or_eq_true _ _).mp hcases)

/-! ### Products and powers -/

/-- An amount as a binary64 number keeps its side of zero. -/
theorem ltInt_toFloat? {a : Amount} {x : Float} (ha : a.lt (ofInt 0) = false)
    (h : a.toFloat? = some x) : Binary64.ltInt x 0 = false := by
  cases a with
  | whole a =>
    have hnot : ¬ a.toInt < 0 := of_decide_eq_false ha
    unfold toFloat? Binary64.ofInt? at h
    dsimp only at h
    split at h
    · cases h
    · cases h
      exact Binary64.ltInt_ofInt (Int.not_lt.mp hnot)
  | real y =>
    cases h
    exact ha

theorem mul?_not_lt_zero {a b c : Amount} (ha : a.lt (ofInt 0) = false)
    (hb : b.lt (ofInt 0) = false) (h : a.mul? b = some c) : c.lt (ofInt 0) = false := by
  have hreal : ∀ x y, a.toFloat? = some x → b.toFloat? = some y →
      (real (x * y)).lt (ofInt 0) = false := fun x y hx hy =>
    Binary64.ltInt_mul (ltInt_toFloat? ha hx) (ltInt_toFloat? hb hy)
  unfold mul? at h
  split at h
  · rename_i v w
    have hv : ¬ v.toInt < 0 := of_decide_eq_false ha
    have hw : ¬ w.toInt < 0 := of_decide_eq_false hb
    cases h
    exact decide_eq_false (Int.not_lt.mpr (Int.mul_nonneg (Int.not_lt.mp hv) (Int.not_lt.mp hw)))
  · obtain ⟨x, hx, h⟩ := Option.bind_eq_some_iff.mp h
    obtain ⟨y, hy, h⟩ := Option.bind_eq_some_iff.mp h
    cases h
    exact hreal x y hx hy

theorem pow?_not_lt_zero {a b : Amount} {n : Nat} (ha : (ofInt 0).lt a = true)
    (h : a.pow? n = some b) : b.lt (ofInt 0) = false := by
  cases a with
  | whole w =>
    have hw : 0 < w.toInt := of_decide_eq_true ha
    cases h
    refine decide_eq_false (Int.not_lt.mpr ?_)
    change 0 ≤ power w.toInt n
    rw [power_eq]
    exact Int.pow_nonneg hw.le
  | real x =>
    unfold pow? at h
    dsimp only at h
    split at h
    · cases h
    · obtain ⟨y, hy, rfl⟩ := Option.map_eq_some_iff.mp h
      exact Binary64.ltInt_pow? ha hy

/-- A product is out of range if a whole factor of a binary64 number is. -/
theorem mul?_eq_none_iff (a b : Amount) : a.mul? b = none ↔
    (∃ w x, a = .whole w ∧ b = .real x ∧ Binary64.limit ≤ w.toInt.natAbs) ∨
      ∃ x w, a = .real x ∧ b = .whole w ∧ Binary64.limit ≤ w.toInt.natAbs := by
  cases a with
  | whole v => cases b <;> simp [mul?, toFloat?, Binary64.ofInt?]
  | real x => cases b <;> simp [mul?, toFloat?, Binary64.ofInt?]

theorem pow?_whole (w : Whole) (n : Nat) :
    (whole w).pow? n = some (ofInt (w.toInt ^ n)) := by
  rw [pow?, power_eq]

theorem of_mul?_real {x : Float} {b c : Amount} (h : (real x).mul? b = some c) :
    ∃ y, b.toFloat? = some y ∧ c = .real (x * y) := by
  obtain ⟨y, hy, h⟩ := Option.bind_eq_some_iff.mp h
  cases h
  exact ⟨y, hy, rfl⟩

/-- A power of a binary64 number is one. -/
theorem of_pow?_real {x : Float} {n : Nat} {b : Amount} (h : (real x).pow? n = some b) :
    ∃ y, b = .real y := by
  unfold pow? at h
  dsimp only at h
  split at h
  · cases h
  · obtain ⟨y, -, rfl⟩ := Option.map_eq_some_iff.mp h
    exact ⟨y, rfl⟩

/-- A power is out of range if it is one of a binary64 number and the number of factors or the power
itself is. -/
theorem pow?_eq_none_iff (a : Amount) (n : Nat) : a.pow? n = none ↔
    ∃ x, a = .real x ∧ (Binary64.limit ≤ n ∨
      ∃ negative m e, Binary64.shape x = .finite negative m e ∧
        (Binary64.limit : ℚ) ≤ Binary64.Dyadic.value ⟨m, e⟩ ^ Binary64.nearest n) := by
  cases a with
  | whole w => simp [pow?]
  | real x =>
    unfold pow?
    dsimp only
    split
    · rename_i hn
      exact ⟨fun _ => ⟨x, rfl, Or.inl hn⟩, fun _ => rfl⟩
    · rename_i hn
      rw [Option.map_eq_none_iff, Binary64.pow?_eq_none_iff]
      constructor
      · exact fun h => ⟨x, rfl, Or.inr h⟩
      · rintro ⟨y, hy, h⟩
        cases hy
        exact h.resolve_left hn

end Amount

/-! ### Delays -/

namespace RetryPolicy

/-- What takes the delay after a number of failures in a row out of range. -/
inductive Exceeds (p : RetryPolicy) (k : Nat) : Prop
  /-- The number of factors is no binary64 number. -/
  | factors {x : Float} (hfactor : p.factor = .real x) (h : Binary64.limit ≤ k - 1)
  /-- The power of a finite factor is out of range. -/
  | power {x : Float} {negative : Bool} {m : Nat} {e : Int} (hfactor : p.factor = .real x)
      (hshape : Binary64.shape x = .finite negative m e)
      (h : (Binary64.limit : ℚ) ≤ Binary64.Dyadic.value ⟨m, e⟩ ^ Binary64.nearest (k - 1))
  /-- A whole first delay is no binary64 number, as the factor is. -/
  | first {w : Whole} {x : Float} (hinitial : p.initialDelay = .whole w)
      (hfactor : p.factor = .real x) (h : Binary64.limit ≤ w.toInt.natAbs)
  /-- The power of a whole factor is no binary64 number, as the first delay is. -/
  | growth {x : Float} {w : Whole} (hinitial : p.initialDelay = .real x)
      (hfactor : p.factor = .whole w) (h : Binary64.limit ≤ (w.toInt ^ (k - 1)).natAbs)

variable {p : RetryPolicy} {k : Nat}

/-- A delay is the first one times its growth, bounded. -/
theorem delay?_of_pos (hk : 1 ≤ k) : p.delay? k =
    (p.factor.pow? (k - 1)).bind fun growth =>
      (p.initialDelay.mul? growth).map p.maxDelay.least := by
  have hfactors : ((k : Int) - 1).toNat = k - 1 := by omega
  unfold delay?
  rw [if_neg (by omega), hfactors]
  cases p.factor.pow? (k - 1) with
  | none => rfl
  | some growth =>
    dsimp only [Option.bind_eq_bind, Option.bind_some]
    cases p.initialDelay.mul? growth <;> rfl

theorem exceeds_of_delay? (hk : 1 ≤ k) (h : p.delay? k = none) : p.Exceeds k := by
  rw [delay?_of_pos hk, Option.bind_eq_none_iff] at h
  cases hgrowth : p.factor.pow? (k - 1) with
  | none =>
    rcases (Amount.pow?_eq_none_iff _ _).mp hgrowth with
      ⟨x, hx, hover | ⟨negative, m, e, hshape, hover⟩⟩
    · exact .factors hx hover
    · exact .power hx hshape hover
  | some growth =>
    have hproduct := Option.map_eq_none_iff.mp (h growth hgrowth)
    rcases (Amount.mul?_eq_none_iff _ _).mp hproduct with
      ⟨w, y, hinitial, rfl, hover⟩ | ⟨y, w, hinitial, rfl, hover⟩
    · cases hfactor : p.factor with
      | whole v =>
        rw [hfactor, Amount.pow?_whole] at hgrowth
        cases hgrowth
      | real x => exact .first hinitial hfactor hover
    · cases hfactor : p.factor with
      | whole v =>
        rw [hfactor, Amount.pow?_whole] at hgrowth
        cases hgrowth
        exact .growth hinitial hfactor hover
      | real x =>
        rw [hfactor] at hgrowth
        obtain ⟨z, hz⟩ := Amount.of_pow?_real hgrowth
        cases hz

theorem delay?_of_exceeds (hk : 1 ≤ k) (h : p.Exceeds k) : p.delay? k = none := by
  rw [delay?_of_pos hk, Option.bind_eq_none_iff]
  intro growth hgrowth
  have hsome : p.factor.pow? (k - 1) ≠ none := by
    rw [hgrowth]
    exact Option.some_ne_none growth
  rw [Option.map_eq_none_iff]
  cases h with
  | factors hfactor hover =>
    exact absurd ((Amount.pow?_eq_none_iff _ _).mpr ⟨_, hfactor, Or.inl hover⟩) hsome
  | power hfactor hshape hover =>
    refine absurd ((Amount.pow?_eq_none_iff _ _).mpr ?_) hsome
    exact ⟨_, hfactor, Or.inr ⟨_, _, _, hshape, hover⟩⟩
  | first hinitial hfactor hover =>
    rw [hfactor] at hgrowth
    obtain ⟨y, rfl⟩ := Amount.of_pow?_real hgrowth
    exact (Amount.mul?_eq_none_iff _ _).mpr (Or.inl ⟨_, _, hinitial, rfl, hover⟩)
  | growth hinitial hfactor hover =>
    rw [hfactor, Amount.pow?_whole] at hgrowth
    cases hgrowth
    exact (Amount.mul?_eq_none_iff _ _).mpr (Or.inr ⟨_, _, hinitial, rfl, hover⟩)

/-- A delay is out of range just if something takes it out of range. -/
theorem delay?_eq_none_iff (hk : 1 ≤ k) : p.delay? k = none ↔ p.Exceeds k :=
  ⟨exceeds_of_delay? hk, delay?_of_exceeds hk⟩

/-- The only failure of a delay is to be out of range. -/
theorem delay_eq_error_iff (hk : 1 ≤ k) : p.delay k = .error .overflow ↔ p.Exceeds k := by
  rw [← delay?_eq_none_iff hk]
  unfold delay
  cases p.delay? k <;> simp

/-- A policy that has no negative delay and does not shrink. -/
structure Grows (p : RetryPolicy) : Prop where
  initial : Amount.ofInt 0 ≤ p.initialDelay
  factor : Amount.ofInt 1 ≤ p.factor
  max : Amount.ofInt 0 ≤ p.maxDelay

/-- A delay that is in range lies between zero and the greatest delay. -/
theorem delay_bounds (hp : p.Grows) (hk : 1 ≤ k) (h : ¬ p.Exceeds k) :
    ∃ d, p.delay k = .ok d ∧ Amount.ofInt 0 ≤ d ∧ d ≤ p.maxDelay := by
  obtain ⟨d, hd⟩ := Option.ne_none_iff_exists'.mp (mt (delay?_eq_none_iff hk).mp h)
  refine ⟨d, by rw [delay, hd], ?_⟩
  rw [delay?_of_pos hk] at hd
  obtain ⟨growth, hgrowth, hd⟩ := Option.bind_eq_some_iff.mp hd
  obtain ⟨delay, hdelay, rfl⟩ := Option.map_eq_some_iff.mp hd
  have hgrowth' := Amount.pow?_not_lt_zero (Amount.zero_lt_of_one_le hp.factor) hgrowth
  have hdelay' := Amount.mul?_not_lt_zero (Amount.not_lt_zero hp.initial) hgrowth' hdelay
  unfold Amount.least
  split
  · rename_i hlt
    exact ⟨Amount.zero_le_of_lt hdelay' hlt, Amount.le_of_lt hlt⟩
  · exact ⟨hp.max, Amount.le_self hp.max⟩

/-! ### The policy that nothing was said about -/

theorem shape_two : Binary64.shape 2 = .finite false (2 ^ 52) (-51) := by
  decide +kernel

/-- With the factor two the power is out of range from the 1025th failure on. -/
theorem exceeds_default_iff (k : Nat) : Exceeds {} k ↔ 1025 ≤ k := by
  obtain ⟨hlow, hhigh⟩ := Binary64.limit_bounds
  rw [zpow_ofNat] at hlow hhigh
  have htwo : Binary64.Dyadic.value ⟨2 ^ 52, -51⟩ = 2 := by
    norm_num [Binary64.Dyadic.value]
  constructor
  · intro h
    cases h with
    | factors hfactor h =>
      have hlimit : 1024 ≤ Binary64.limit := by decide +kernel
      omega
    | power hfactor hshape h =>
      cases hfactor
      rw [shape_two] at hshape
      cases hshape
      rw [htwo] at h
      by_contra hk
      have hnearest : ¬ 1024 ≤ Binary64.nearest (k - 1) := fun hle =>
        hk (by have := (Binary64.le_nearest_iff (by decide)).mp hle; omega)
      have hpow : (2 : ℚ) ^ Binary64.nearest (k - 1) ≤ 2 ^ 1023 :=
        pow_le_pow_right₀ (by norm_num) (by omega)
      exact absurd h (not_le.mpr (lt_of_le_of_lt hpow hlow))
    | first hinitial => cases hinitial
    | growth _ hfactor => cases hfactor
  · intro hk
    have hnearest : 1024 ≤ Binary64.nearest (k - 1) :=
      (Binary64.le_nearest_iff (by decide)).mpr (by omega)
    refine .power rfl shape_two ?_
    rw [htwo]
    exact le_trans hhigh.le (pow_le_pow_right₀ (by norm_num) hnearest)

end RetryPolicy

end ChainIndexer
