import ChainIndexer.Number.Binary64

/-!
The shortest decimal that reads back as a given binary64 number. The reals that round to
`m * 2 ^ q` form an interval, which has its ends if and only if `m` is even. For one, two, … digits
the two neighbours of the number on that decimal grid are tried; the first grid with a neighbour in
the interval wins, and of two neighbours the nearer, a tie going to the even digit.
-/

namespace ChainIndexer.Shortest

/-- A decimal `digits * 10 ^ exponent`. -/
structure Decimal where
  digits : Nat
  exponent : Int
  deriving DecidableEq, Repr

/-- A fraction of natural numbers. -/
structure Ratio where
  num : Nat
  den : Nat

/-- The fraction `num * 2 ^ e`. -/
def Ratio.ofDyadic (num : Nat) (e : Int) : Ratio :=
  if 0 ≤ e then ⟨num * 2 ^ e.toNat, 1⟩ else ⟨num, 2 ^ (-e).toNat⟩

def Ratio.scale (r : Ratio) (k : Int) : Ratio :=
  if 0 ≤ k then ⟨r.num, r.den * 10 ^ k.toNat⟩ else ⟨r.num * 10 ^ (-k).toNat, r.den⟩

/-- The interval of the reals that round to a number, four times as fine as its last bit. -/
structure Interval where
  low : Nat
  value : Nat
  high : Nat
  /-- The power of two that the three are multiples of. -/
  unit : Int
  closed : Bool

/-- The interval of `m * 2 ^ q`. Below a power of two the numbers lie twice as dense. -/
def interval (m : Nat) (q : Int) : Interval :=
  let below := if m = 2 ^ 52 ∧ -1074 < q then 1 else 2
  ⟨4 * m - below, 4 * m, 4 * m + 2, q - 2, m % 2 == 0⟩

/-- Whether `d * 10 ^ k` lies in an interval. -/
def Interval.holds (i : Interval) (d : Nat) (k : Int) : Bool :=
  let low := (Ratio.ofDyadic i.low i.unit).scale k
  let high := (Ratio.ofDyadic i.high i.unit).scale k
  if i.closed then low.num ≤ d * low.den && d * high.den ≤ high.num
  else low.num < d * low.den && d * high.den < high.num

/-- The better of the two neighbours of the value on the grid of the multiples of `10 ^ k`, if one
of them lies in the interval. -/
def Interval.onGrid (i : Interval) (k : Int) : Option Decimal :=
  let r := (Ratio.ofDyadic i.value i.unit).scale k
  let d := r.num / r.den
  let below := i.holds d k && d != 0
  let above := i.holds (d + 1) k
  if below && above then
    let twice := 2 * (r.num - d * r.den)
    let up := r.den < twice || (twice == r.den && d % 2 == 1)
    some ⟨if up then d + 1 else d, k⟩
  else if below then some ⟨d, k⟩
  else if above then some ⟨d + 1, k⟩
  else none

def digitCount (n : Nat) : Nat :=
  (Nat.toDigits 10 n).length

/-- The power of ten of the first digit of a positive `m * 2 ^ q`. -/
def leading (m : Nat) (q : Int) : Int :=
  let r := (Ratio.ofDyadic m q).scale (-400)
  (digitCount (r.num / r.den) : Int) - 401

/-- Tries grids of `n`, `n + 1`, … digits, `fuel` of them. -/
def search (i : Interval) (top : Int) : (fuel n : Nat) → Option Decimal
  | 0, _ => none
  | fuel + 1, n =>
    match i.onGrid (top - n + 1) with
    | some d => some d
    | none => search i top fuel (n + 1)

/-- Moves the zeros at the end of the digits into the exponent. -/
def Decimal.dropZeros (d : Decimal) : (fuel : Nat) → Decimal
  | 0 => d
  | fuel + 1 =>
    if d.digits % 10 = 0 ∧ d.digits ≠ 0 then
      Decimal.dropZeros ⟨d.digits / 10, d.exponent + 1⟩ fuel
    else d

/-- The shortest decimal that rounds to a positive `m * 2 ^ q`. Seventeen digits always do. -/
def shortest (m : Nat) (q : Int) : Decimal :=
  match search (interval m q) (leading m q) 17 1 with
  | some d => d.dropZeros 20
  | none => ⟨0, 0⟩

/-- How a binary64 number is written. -/
structure Format where
  /-- The power of ten of the first digit from which on digits are written out in full. -/
  positionalFrom : Int
  /-- The power of ten of the first digit from which on an exponent is written. -/
  exponentFrom : Int
  /-- The least number of digits of a written exponent. -/
  exponentDigits : Nat
  nan : String
  infinity : String

/-- The digits of `n`, with zeros in front of them up to the given count. -/
def padded (count n : Nat) : List Char :=
  let ds := Nat.toDigits 10 n
  List.replicate (count - ds.length) '0' ++ ds

/-- A decimal with its first digit before the point and an exponent. -/
def Format.scientific (f : Format) (ds : List Char) (top : Int) : List Char :=
  let fraction := match ds.drop 1 with
    | [] => []
    | rest => '.' :: rest
  let sign := if top < 0 then '-' else '+'
  ds.take 1 ++ fraction ++ 'e' :: sign :: padded f.exponentDigits top.natAbs

/-- A decimal with all its places written out, and at least one after the point. -/
def positional (ds : List Char) (top : Int) : List Char :=
  if top < 0 then
    '0' :: '.' :: List.replicate ((-top).toNat - 1) '0' ++ ds
  else
    let count := top.toNat + 1
    let whole := ds.take count
    let fraction := match ds.drop count with
      | [] => ['0']
      | rest => rest
    whole ++ List.replicate (count - whole.length) '0' ++ '.' :: fraction

/-- A binary64 number as text. -/
def Format.write (f : Format) (x : Float) : String :=
  match Binary64.shape x with
  | .nan => f.nan
  | .infinite negative => if negative then "-" ++ f.infinity else f.infinity
  | .finite negative m q =>
    let body :=
      if m = 0 then "0.0".toList
      else
        let d := shortest m q
        let ds := Nat.toDigits 10 d.digits
        let top : Int := d.exponent + ds.length - 1
        if f.positionalFrom ≤ top ∧ top < f.exponentFrom then positional ds top
        else f.scientific ds top
    String.ofList (if negative then '-' :: body else body)

end ChainIndexer.Shortest
