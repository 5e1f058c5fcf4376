import ChainIndexer.Number.Binary64

/-!
The two kinds of number that a delay or a backoff may be given as. A `Whole` is an integer or a
truth value, which counts as one or zero and stays what it is when it is only handed on. An `Amount`
is a whole number, of any size, or a binary64 number; arithmetic stays whole while both sides are
whole.
-/

namespace ChainIndexer

/-- An integer, or a truth value in the place of one. -/
inductive Whole where
  | number (n : Int)
  | flag (b : Bool)
  deriving DecidableEq, Repr

namespace Whole

def toInt : Whole → Int
  | .number n => n
  | .flag b => if b then 1 else 0

instance : Coe Int Whole := ⟨.number⟩

end Whole

/-- A number in a delay. -/
inductive Amount where
  | whole (w : Whole)
  | real (x : Float)
  deriving DecidableEq, Repr

namespace Amount

def ofInt (n : Int) : Amount := .whole (.number n)

/-- An amount as a binary64 number; `none` if a whole amount is out of range. -/
def toFloat? : Amount → Option Float
  | .whole w => Binary64.ofInt? w.toInt
  | .real x => some x

/-- The product of two amounts; `none` if a whole factor is out of the range of the other. -/
def mul? : Amount → Amount → Option Amount
  | .whole a, .whole b => some (.ofInt (a.toInt * b.toInt))
  | a, b => do
    let x ← a.toFloat?
    let y ← b.toFloat?
    return .real (x * y)

/-- A natural power of an integer. Those of one, zero and minus one take no multiplications. -/
def power (b : Int) (n : Nat) : Int :=
  if b.natAbs ≤ 1 then if n = 0 then 1 else if n % 2 = 0 then b * b else b
  else b ^ n

theorem power_eq (b : Int) (n : Nat) : power b n = b ^ n := by
  unfold power
  split
  · rename_i hb
    have hcube : b * b * b = b := by
      obtain rfl | rfl | rfl : b = 0 ∨ b = 1 ∨ b = -1 := by omega
      · rfl
      · rfl
      · rfl
    have hodd (k : Nat) : b ^ (2 * k + 1) = b := by
      induction k with
      | zero => rw [Nat.mul_zero, Int.pow_succ, Int.pow_zero, Int.one_mul]
      | succ k ih => rw [Nat.mul_succ, Int.pow_succ, Int.pow_succ, ih, hcube]
    split
    · rename_i hzero
      rw [hzero, Int.pow_zero]
    split
    · obtain ⟨k, rfl⟩ : ∃ k, n = 2 * k + 1 + 1 := ⟨n / 2 - 1, by omega⟩
      rw [Int.pow_succ, hodd]
    · obtain ⟨k, rfl⟩ : ∃ k, n = 2 * k + 1 := ⟨n / 2, by omega⟩
      rw [hodd]
  · rfl

/-- An amount to a natural power; `none` if a finite base has a power out of range. A binary64 base
takes the power as a binary64 number, which must be in range as well. -/
def pow? : Amount → Nat → Option Amount
  | .whole w, n => some (.ofInt (power w.toInt n))
  | .real x, n =>
    if Binary64.limit ≤ n then none
    else (Binary64.pow? x (Binary64.nearest n)).map .real

/-- Whether one amount lies below another, compared without rounding. -/
def lt : Amount → Amount → Bool
  | .whole a, .whole b => a.toInt < b.toInt
  | .whole a, .real y => Binary64.intLt a.toInt y
  | .real x, .whole b => Binary64.ltInt x b.toInt
  | .real x, .real y => x < y

/-- The lesser of two amounts, the first unless the second lies below it. -/
def least (a b : Amount) : Amount :=
  if b.lt a then b else a

end Amount

end ChainIndexer
