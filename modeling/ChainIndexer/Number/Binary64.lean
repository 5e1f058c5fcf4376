import ChainIndexer.Number.Power

/-!
Binary64 numbers seen as dyadic fractions. `shape` takes a number apart, `ofDyadic` rounds a dyadic
fraction to the nearest number, and `pow?` raises a number to a whole power through its fraction, so
that the only rounding is the last one as long as the power has at most `width` bits. Whether a
power is out of range is decided without rounding.
-/

namespace ChainIndexer.Binary64

/-- What a binary64 number is: no number, an infinity, or a signed `mantissa * 2 ^ exponent`. -/
inductive Shape where
  | nan
  | infinite (negative : Bool)
  | finite (negative : Bool) (mantissa : Nat) (exponent : Int)
  deriving DecidableEq, Repr

/-- Takes a number apart. A zero has the least of the exponents. -/
def shape (x : Float) : Shape :=
  match x.toModel.unpack with
  | .notANumber => .nan
  | .infinity sign => .infinite (sign == .negative)
  | .zero sign => .finite (sign == .negative) 0 (-1074)
  | .finite sign mantissa exponent _ => .finite (sign == .negative) mantissa exponent

/-- A sign put to a natural number. -/
def signed (negative : Bool) (n : Nat) : Int :=
  if negative then -(n : Int) else n

/-- The whole part of `mantissa * 2 ^ exponent`. -/
def wholePart (mantissa : Nat) (exponent : Int) : Nat :=
  if 0 ≤ exponent then mantissa * 2 ^ exponent.toNat else mantissa / 2 ^ (-exponent).toNat

/-- Whether `mantissa * 2 ^ exponent` is a whole number. -/
def isWhole (mantissa : Nat) (exponent : Int) : Bool :=
  0 ≤ exponent || mantissa % 2 ^ (-exponent).toNat == 0

/-- Whether a whole number lies below a binary64 number, compared without rounding. -/
def intLt (n : Int) (x : Float) : Bool :=
  match shape x with
  | .nan => false
  | .infinite negative => !negative
  | .finite negative m e =>
    if 0 ≤ e then n < signed negative (m * 2 ^ e.toNat)
    else n * (2 ^ (-e).toNat : Nat) < signed negative m

/-- Whether a binary64 number lies below a whole number, compared without rounding. -/
def ltInt (x : Float) (n : Int) : Bool :=
  match shape x with
  | .nan => false
  | .infinite negative => negative
  | .finite negative m e =>
    if 0 ≤ e then signed negative (m * 2 ^ e.toNat) < n
    else signed negative m < n * (2 ^ (-e).toNat : Nat)

/-- Whether a binary64 number is the given whole number. -/
def eqInt (x : Float) (n : Int) : Bool :=
  match shape x with
  | .finite negative m e => isWhole m e && signed negative (wholePart m e) == n
  | _ => false

/-- The least natural number that is out of range: halfway between the greatest binary64 number and
the power of two behind it. -/
@[irreducible] def limit : Nat := 2 ^ 1024 - 2 ^ 970

/-- The nearest binary64 number to a whole number, if that is in range. -/
def ofInt? (n : Int) : Option Float :=
  if limit ≤ n.natAbs then none else some (Float.ofInt n)

/-- The nearest natural number that has at most 53 bits before its zeros; between two of them the
one with an even last bit. -/
def nearest (n : Nat) : Nat :=
  let cut := n.log2 + 1 - 53
  let kept := n / 2 ^ cut
  let lost := n % 2 ^ cut
  let isUp := 2 ^ cut < 2 * lost ∨ (2 ^ cut = 2 * lost ∧ kept % 2 = 1)
  (if isUp then kept + 1 else kept) * 2 ^ cut

/-- A natural number times a power of two. -/
structure Dyadic where
  mantissa : Nat
  exponent : Int
  deriving DecidableEq, Repr

/-- The number of bits that a power keeps on its way. -/
def width : Nat := 256

namespace Dyadic

/-- Cuts a mantissa to `width` bits. `settle` is done to what is left if anything but zeros was cut
off. -/
def cut (settle : Nat → Nat) (d : Dyadic) : Dyadic :=
  let surplus := d.mantissa.log2 + 1 - width
  let kept := d.mantissa / 2 ^ surplus
  ⟨if d.mantissa % 2 ^ surplus = 0 then kept else settle kept, d.exponent + surplus⟩

/-- Rounds down to `width` bits. -/
def floor : Dyadic → Dyadic :=
  cut id

/-- Rounds up to `width` bits. -/
def ceiling : Dyadic → Dyadic :=
  cut (· + 1)

/-- Cuts to `width` bits with the last bit set if anything but zeros was cut off, so that a later
rounding to fewer bits goes the right way. -/
def shorten : Dyadic → Dyadic :=
  cut fun kept => kept / 2 * 2 + 1

def mul (a b : Dyadic) : Dyadic :=
  ⟨a.mantissa * b.mantissa, a.exponent + b.exponent⟩

/-- Repeated squaring, with a rounding after each product. `fuel` bounds the number of halvings of
the power. -/
def powFrom (round : Dyadic → Dyadic) (d : Dyadic) : (fuel n : Nat) → Dyadic
  | 0, _ => ⟨1, 0⟩
  | fuel + 1, n =>
    if n = 0 then ⟨1, 0⟩
    else
      let half := d.powFrom round fuel (n / 2)
      let square := round (half.mul half)
      if n % 2 = 0 then square else round (square.mul d)

/-- A dyadic fraction to a natural power, with a rounding after each product. -/
def pow (round : Dyadic → Dyadic) (d : Dyadic) (n : Nat) : Dyadic :=
  d.powFrom round n n

/-- Whether a dyadic fraction is out of range. Its first bit settles that unless it is the first bit
of the limit. -/
def isOver (d : Dyadic) : Bool :=
  let top : Int := d.mantissa.log2 + d.exponent
  if d.mantissa = 0 ∨ top < 1023 then false
  else if 1023 < top then true
  else if 0 ≤ d.exponent then limit ≤ d.mantissa * 2 ^ d.exponent.toNat
  else limit * 2 ^ (-d.exponent).toNat ≤ d.mantissa

/-- Whether a power of a dyadic fraction is out of range. A lower and an upper bound of the power
settle that mostly; only between them the power is made without rounding. -/
def isPowOver (d : Dyadic) (n : Nat) : Bool :=
  (d.pow floor n).isOver || ((d.pow ceiling n).isOver && (d.pow id n).isOver)

end Dyadic

def infinity : Float := Float.ofBits 0x7FF0000000000000

/-- The nearest binary64 number to a dyadic fraction. -/
def ofDyadic (negative : Bool) (d : Dyadic) : Float :=
  let top : Int := d.mantissa.log2 + d.exponent
  let x :=
    if d.mantissa = 0 ∨ top < -1100 then 0
    else if 1024 ≤ top then infinity
    else if 0 ≤ d.exponent then Float.ofScientific (d.mantissa * 2 ^ d.exponent.toNat) false 0
    else
      let k := (-d.exponent).toNat
      Float.ofScientific (d.mantissa * 5 ^ k) true k
  if negative then -x else x

/-- A binary64 number to a natural power; `none` if a finite number has a power out of range. -/
def pow? (x : Float) (n : Nat) : Option Float :=
  if n = 0 then some 1
  else match shape x with
    | .nan => some x
    | .infinite negative => some (if negative && n % 2 == 1 then -infinity else infinity)
    | .finite negative m e =>
      if Dyadic.isPowOver ⟨m, e⟩ n then none
      else some (ofDyadic (negative && n % 2 == 1) (Dyadic.pow .shorten ⟨m, e⟩ n))

end ChainIndexer.Binary64
