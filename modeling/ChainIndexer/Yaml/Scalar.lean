import ChainIndexer.Bytes.Base64
import ChainIndexer.Number.Decimal
import ChainIndexer.Text.Letter
import ChainIndexer.Value
import ChainIndexer.Yaml.Form

/-!
The values of scalars. A tag makes any text a number, a date or a truth value that can be read as
one, and this is more lenient than the forms of plain scalars: white space, digits of other scripts
and further signs are let through wherever a numeral may have them. A date stands for the list of
its parts.
-/

namespace ChainIndexer.Yaml

/-- A text without underscores and without its sign, and whether that is a minus. -/
def splitNumber (s : String) : Except Problem (Bool × List Char) :=
  match s.toList.filter (· != '_') with
  | '-' :: cs => .ok (true, cs)
  | '+' :: cs => .ok (false, cs)
  | [] => .error .noDigits
  | cs => .ok (false, cs)

def numeral (base : Nat) (cs : List Char) : Except Problem Int :=
  match Numeral.read? base (String.ofList cs) with
  | some n => .ok n
  | none =>
    let digits := (Text.trim Text.isSpace cs).takeWhile fun c => (Text.digit? c).isSome
    if base = 10 ∧ Numeral.maxDigits < digits.length then .error (.longNumeral digits.length)
    else .error (.noNumeral base (String.ofList cs))

/-- A whole number without its sign. A zero in front marks an octal one. -/
def wholeBody : List Char → Except Problem Int
  | [] => .error .noDigits
  | ['0'] => .ok 0
  | '0' :: 'b' :: ds => numeral 2 ds
  | '0' :: 'x' :: ds => numeral 16 ds
  | '0' :: ds => numeral 8 ('0' :: ds)
  | cs =>
    if cs.contains ':' then do
      let parts ← (cs.splitOn ':').mapM (numeral 10)
      return parts.foldl (fun n part => n * 60 + part) 0
    else numeral 10 cs

def wholeOf (s : String) : Except Problem Int := do
  let (negative, cs) ← splitNumber s
  let n ← wholeBody cs
  return if negative then -n else n

/-- A decimal number, which may have white space around it and digits of any script. -/
def decimal (cs : List Char) : Except Problem Float :=
  let ascii (c : Char) : Char := ((Text.digit? c).map Text.digitChar).getD c
  match Decimal.literal? ((Text.trim Text.isSpace cs).map ascii) with
  | some x => .ok x
  | none => .error (.noDecimal (Text.toLower (String.ofList cs)))

/-- The sum of parts in base sixty, the lowest of which comes first. The weight of a part is a power
of sixty, which must be in the range of the numbers. -/
def weigh (sum : Float) (power : Nat) : List Float → Except Problem Float
  | [] => .ok sum
  | part :: rest =>
    match Binary64.ofInt? (60 ^ power : Nat) with
    | some weight => weigh (sum + part * weight) (power + 1) rest
    | none => .error .greatWeight

/-- A binary64 number without its sign. -/
def floatBody (cs : List Char) : Except Problem Float :=
  let word := String.ofList (cs.map Char.toLower)
  if word = ".inf" then .ok Binary64.infinity
  else if word = ".nan" then .ok (Float.ofBits 0x7FF8000000000000)
  else if cs.contains ':' then do
    let parts ← (cs.splitOn ':').mapM decimal
    weigh 0 0 parts.reverse
  else decimal cs

def floatOf (s : String) : Except Problem Float := do
  let (negative, cs) ← splitNumber s
  let x ← floatBody cs
  return if negative then -x else x

/-- The truth value of a word in letters of any case. -/
def truthOf (s : String) : Except Problem Bool :=
  match String.ofList (s.toList.map Char.toLower) with
  | "yes" | "true" | "on" => .ok true
  | "no" | "false" | "off" => .ok false
  | _ => .error .noTruthValue

def stampOf (s : String) : Except Problem Stamp :=
  match Stamp.read? (withoutFeed s.toList) with
  | none => .error .noStamp
  | some stamp =>
    match stamp.problem? with
    | some p => .error (.badStamp p)
    | none => .ok stamp

def bytesOf (s : String) : Except Problem Bytes :=
  (Base64.read s).mapError fun _ => .notYaml

/-- The value of a text under a tag. Tags of collections have none. -/
def scalarValue (tag : Tag) (s : String) : Except Problem Value :=
  match tag with
  | .null => .ok .null
  | .bool => (truthOf s).map .bool
  | .int => (wholeOf s).map .int
  | .float => (floatOf s).map .float
  | .binary => (bytesOf s).map .bytes
  | .timestamp => (stampOf s).map fun stamp => .list (stamp.parts.map fun (n : Nat) => .int n)
  | .str => .ok (.text s)
  | _ => .error .notYaml

end ChainIndexer.Yaml
