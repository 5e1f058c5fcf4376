import ChainIndexer.Fault
import ChainIndexer.Number.Decimal
import ChainIndexer.Number.Numeral
import ChainIndexer.Text.Digit
import ChainIndexer.Value

/-!
Reading JSON. Beyond the standard, `NaN`, `Infinity` and `-Infinity` are read as numbers. A number
with a fraction or an exponent is a binary64 number, any other a whole number of any size up to
`Numeral.maxDigits` digits; a longer one is refused as a bad value, everything else that is not JSON
as such. A surrogate that stands alone becomes U+FFFD. Collections are nested `maxDepth` deep at
most.
-/

namespace ChainIndexer.Json

def isBlank (c : Char) : Bool :=
  c == ' ' || c == '\t' || c == '\n' || c == '\r'

def skip (cs : List Char) : List Char :=
  cs.dropWhile isBlank

/-- The code unit of a `\u` escape. -/
def unit? (a b c d : Char) : Option Nat := do
  let a ← Text.hexDigit? a
  let b ← Text.hexDigit? b
  let c ← Text.hexDigit? c
  let d ← Text.hexDigit? d
  return ((a * 16 + b) * 16 + c) * 16 + d

/-- The character of an escape with a single letter. -/
def escape? : Char → Option Char
  | '"' => some '"'
  | '\\' => some '\\'
  | '/' => some '/'
  | 'b' => some '\x08'
  | 'f' => some '\x0c'
  | 'n' => some '\n'
  | 'r' => some '\r'
  | 't' => some '\t'
  | _ => none

/-- The code points and surrogates of a text up to its closing quote, and what follows it. -/
def units : List Char → Except Fault (List Nat × List Char)
  | [] => .error .notJson
  | '"' :: rest => .ok ([], rest)
  | '\\' :: 'u' :: a :: b :: c :: d :: rest =>
    match unit? a b c d with
    | none => .error .notJson
    | some n => (units rest).map fun (us, r) => (n :: us, r)
  | '\\' :: c :: rest =>
    match escape? c with
    | none => .error .notJson
    | some e => (units rest).map fun (us, r) => (e.toNat :: us, r)
  | c :: rest =>
    if c = '\\' ∨ c.toNat < 0x20 then .error .notJson
    else (units rest).map fun (us, r) => (c.toNat :: us, r)

/-- The character of a code point. No text holds a surrogate that stands alone, so U+FFFD takes its
place. -/
def scalar (n : Nat) : Char :=
  if 0xD800 ≤ n ∧ n < 0xE000 then '\uFFFD' else Char.ofNat n

/-- Joins every high surrogate with a low one that follows it. -/
def joinPairs : List Nat → List Char
  | [] => []
  | [n] => [scalar n]
  | high :: low :: rest =>
    if 0xD800 ≤ high ∧ high < 0xDC00 ∧ 0xDC00 ≤ low ∧ low < 0xE000 then
      Char.ofNat (0x10000 + (high - 0xD800) * 0x400 + (low - 0xDC00)) :: joinPairs rest
    else scalar high :: joinPairs (low :: rest)

/-- A text, after its opening quote. -/
def textBody (cs : List Char) : Except Fault (String × List Char) :=
  (units cs).map fun (us, r) => (String.ofList (joinPairs us), r)

/-- The whole part of a number: a single zero, or digits that do not begin with one. -/
def wholePart : List Char → Option (List Char × List Char)
  | '0' :: rest => some (['0'], rest)
  | cs =>
    match Decimal.spanDigits cs with
    | ([], _) => none
    | (ds, rest) => some (ds, rest)

/-- A number after its sign. -/
def unsigned (negative : Bool) (cs : List Char) : Except Fault (Value × List Char) :=
  match wholePart cs with
  | none => .error .notJson
  | some (whole, rest) =>
    let (fraction, rest) := Decimal.spanFraction rest
    let (exponent, rest) := Decimal.spanExponent rest
    if fraction.isEmpty && exponent.isNone then
      if Numeral.maxDigits < whole.length then .error .badValue
      else .ok (.int (Numeral.signed negative (Decimal.ofDigits 0 whole)), rest)
    else
      let digits := Decimal.ofDigits 0 (whole ++ fraction)
      .ok (.float (Decimal.toFloat negative digits (exponent.getD 0 - fraction.length)), rest)

def nan : Float := Float.ofBits 0x7FF8000000000000

/-- How deep collections may be nested. What is bounded is the number of calls under way, so the
number depends on how deep in calls the reading itself starts; this one is for a start near the top.
-/
def maxDepth : Nat := 985

mutual

/-- A value at the head of a text, in which collections are nested `depth` deep at most, and what
follows it. -/
def valueFrom (depth : Nat) : (fuel : Nat) → List Char → Except Fault (Value × List Char)
  | 0, _ => .error .notJson
  | fuel + 1, cs =>
    match cs with
    | '"' :: rest => (textBody rest).map fun (s, r) => (.text s, r)
    | '\x7b' :: rest =>
      match depth, skip rest with
      | 0, _ => .error .tooDeep
      | _, '\x7d' :: r => .ok (.object [], r)
      | depth + 1, rest => membersFrom depth fuel [] rest
    | '[' :: rest =>
      match depth, skip rest with
      | 0, _ => .error .tooDeep
      | _, ']' :: r => .ok (.list [], r)
      | depth + 1, rest => itemsFrom depth fuel [] rest
    | 'n' :: 'u' :: 'l' :: 'l' :: rest => .ok (.null, rest)
    | 't' :: 'r' :: 'u' :: 'e' :: rest => .ok (.bool true, rest)
    | 'f' :: 'a' :: 'l' :: 's' :: 'e' :: rest => .ok (.bool false, rest)
    | 'N' :: 'a' :: 'N' :: rest => .ok (.float nan, rest)
    | 'I' :: 'n' :: 'f' :: 'i' :: 'n' :: 'i' :: 't' :: 'y' :: rest =>
      .ok (.float Binary64.infinity, rest)
    | '-' :: 'I' :: 'n' :: 'f' :: 'i' :: 'n' :: 'i' :: 't' :: 'y' :: rest =>
      .ok (.float (-Binary64.infinity), rest)
    | '-' :: rest => unsigned true rest
    | cs => unsigned false cs

/-- The members of an object from the name of one of them on, the earlier ones in `done`. -/
def membersFrom (depth : Nat) : (fuel : Nat) → (done : List (String × Value)) → List Char →
    Except Fault (Value × List Char)
  | 0, _, _ => .error .notJson
  | fuel + 1, done, cs =>
    match cs with
    | '"' :: rest =>
      match textBody rest with
      | .error e => .error e
      | .ok (key, rest) =>
        match skip rest with
        | ':' :: rest =>
          match valueFrom depth fuel (skip rest) with
          | .error e => .error e
          | .ok (v, rest) =>
            match skip rest with
            | ',' :: rest => membersFrom depth fuel (done ++ [(key, v)]) (skip rest)
            | '\x7d' :: rest => .ok (Value.objectOf (done ++ [(key, v)]), rest)
            | _ => .error .notJson
        | _ => .error .notJson
    | _ => .error .notJson

/-- The items of a list from one of them on, the earlier ones in `done`, last first. -/
def itemsFrom (depth : Nat) : (fuel : Nat) → (done : List Value) → List Char →
    Except Fault (Value × List Char)
  | 0, _, _ => .error .notJson
  | fuel + 1, done, cs =>
    match valueFrom depth fuel cs with
    | .error e => .error e
    | .ok (v, rest) =>
      match skip rest with
      | ',' :: rest => itemsFrom depth fuel (v :: done) (skip rest)
      | ']' :: rest => .ok (.list (v :: done).reverse, rest)
      | _ => .error .notJson

end

def read (s : String) : Except Fault Value :=
  let cs := s.toList
  match valueFrom maxDepth (2 * cs.length + 2) (skip cs) with
  | .error e => .error e
  | .ok (v, rest) => if (skip rest).isEmpty then .ok v else .error .notJson

end ChainIndexer.Json
