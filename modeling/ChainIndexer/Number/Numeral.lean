import ChainIndexer.Number.Power
import ChainIndexer.Text.Blank
import ChainIndexer.Text.Digit

/-!
Whole numbers as text. A numeral may have white space around it and a sign before it, its digits may
be those of any script, and single underscores may stand between two digits; in base two, eight and
sixteen a mark such as `0x` may come first, with one underscore after it. A decimal numeral of more
than `maxDigits` digits is refused, in reading as in writing.
-/

namespace ChainIndexer.Numeral

/-- The greatest number of decimal digits that is read or written. -/
def maxDigits : Nat := 4300

/-- The digits of a row in which single underscores may stand between two digits. -/
def digitRow? (base : Nat) : List Char → Option (List Nat)
  | [] => none
  | c :: cs =>
    match Text.alphanumeric? c with
    | none => none
    | some d =>
      if base ≤ d then none
      else match cs with
        | [] => some [d]
        | '_' :: rest => (digitRow? base rest).map (d :: ·)
        | next :: rest => (digitRow? base (next :: rest)).map (d :: ·)

/-- The number that digits stand for, the most significant one first. -/
def ofDigits (base : Nat) (ds : List Nat) : Nat :=
  ds.foldl (fun n d => n * base + d) 0

def splitSign : List Char → Bool × List Char
  | '-' :: cs => (true, cs)
  | '+' :: cs => (false, cs)
  | cs => (false, cs)

/-- The letter that marks a base behind a zero. -/
def baseLetter? : Nat → Option Char
  | 2 => some 'b'
  | 8 => some 'o'
  | 16 => some 'x'
  | _ => none

/-- What follows the mark of a base, such as `0x`, and one underscore after it. The zero may be that
of any script. -/
def dropMark (base : Nat) (cs : List Char) : List Char :=
  match cs with
  | zero :: c :: rest =>
    if Text.digit? zero = some 0 ∧ baseLetter? base = some c.toLower then
      match rest with
      | '_' :: rest => rest
      | _ => rest
    else cs
  | _ => cs

/-- A sign put to a natural number. -/
def signed (negative : Bool) (n : Nat) : Int :=
  if negative then -(n : Int) else n

/-- The number that a numeral in a base up to thirty-six denotes. -/
def read? (base : Nat) (s : String) : Option Int :=
  let (negative, cs) := splitSign (Text.trim Text.isSpace s.toList)
  match digitRow? base (dropMark base cs) with
  | none => none
  | some ds =>
    if base = 10 ∧ maxDigits < ds.length then none
    else some (signed negative (ofDigits base ds))

def natural (n : Nat) : String :=
  String.ofList (Nat.toDigits 10 n)

def decimal (n : Int) : String :=
  match n with
  | .ofNat n => natural n
  | .negSucc n => "-" ++ natural (n + 1)

/-- Whether the decimal numeral of a whole number is short enough to be written. -/
def isWritable (n : Int) : Bool :=
  n.natAbs < 10 ^ maxDigits

def hexadecimal (n : Int) : String :=
  match n with
  | .ofNat n => String.ofList ('0' :: 'x' :: Nat.toDigits 16 n)
  | .negSucc n => String.ofList ('-' :: '0' :: 'x' :: Nat.toDigits 16 (n + 1))

end ChainIndexer.Numeral
