import ChainIndexer.Number.Binary64
import ChainIndexer.Number.Numeral

/-!
Decimal fractions as binary64 numbers. A fraction is given by its digits, as one natural number, and
the power of ten of the last of them; the result is the nearest number, infinity beyond the range.
-/

namespace ChainIndexer.Decimal

/-- The nearest binary64 number to `digits * 10 ^ exponent`, with a sign. -/
def toFloat (negative : Bool) (digits : Nat) (exponent : Int) : Float :=
  let x := Float.ofScientific digits (exponent < 0) exponent.natAbs
  if negative then -x else x

/-- The number that decimal digits stand for, going on from `n`. -/
def ofDigits (n : Nat) (ds : List Char) : Nat :=
  ds.foldl (fun n c => n * 10 + (c.toNat - 0x30)) n

/-- The leading ASCII digits of a text and what follows them. -/
def spanDigits (cs : List Char) : List Char × List Char :=
  (cs.takeWhile Char.isDigit, cs.dropWhile Char.isDigit)

/-- A fraction `.5` at the head of a text: its digits, if there are any, and what follows. -/
def spanFraction : List Char → List Char × List Char
  | '.' :: cs =>
    match spanDigits cs with
    | ([], _) => ([], '.' :: cs)
    | (ds, rest) => (ds, rest)
  | cs => ([], cs)

/-- An exponent without its mark: a sign, at least one digit, and what follows. -/
def spanExponentDigits : List Char → Option (Int × List Char)
  | '-' :: cs =>
    match spanDigits cs with
    | ([], _) => none
    | (ds, rest) => some (-(ofDigits 0 ds : Int), rest)
  | '+' :: cs =>
    match spanDigits cs with
    | ([], _) => none
    | (ds, rest) => some ((ofDigits 0 ds : Int), rest)
  | cs =>
    match spanDigits cs with
    | ([], _) => none
    | (ds, rest) => some ((ofDigits 0 ds : Int), rest)

/-- An exponent `e-5` at the head of a text, if one stands there, and what follows. -/
def spanExponent : List Char → Option Int × List Char
  | 'e' :: cs =>
    match spanExponentDigits cs with
    | some (e, rest) => (some e, rest)
    | none => (none, 'e' :: cs)
  | 'E' :: cs =>
    match spanExponentDigits cs with
    | some (e, rest) => (some e, rest)
    | none => (none, 'E' :: cs)
  | cs => (none, cs)

/-- The number that a text spells with digits, a point among or beside them, and an exponent. -/
def read? (negative : Bool) (cs : List Char) : Option Float :=
  let (whole, rest) := spanDigits cs
  let (fraction, rest) := match rest with
    | '.' :: more => spanDigits more
    | _ => ([], rest)
  if whole.isEmpty && fraction.isEmpty then none
  else
    let digits := ofDigits 0 (whole ++ fraction)
    let places : Int := fraction.length
    match rest with
    | [] => some (toFloat negative digits (-places))
    | c :: more =>
      if c = 'e' ∨ c = 'E' then
        match spanExponentDigits more with
        | some (e, []) => some (toFloat negative digits (e - places))
        | _ => none
      else none

/-- A number in the form of a decimal, an infinity or no number, with a sign or none. -/
def literal? (cs : List Char) : Option Float :=
  let (negative, body) := Numeral.splitSign cs
  let word := String.ofList (body.map Char.toLower)
  if word = "inf" ∨ word = "infinity" then
    some (if negative then -Binary64.infinity else Binary64.infinity)
  else if word = "nan" then some (Float.ofBits 0x7FF8000000000000)
  else Decimal.read? negative body

end ChainIndexer.Decimal
