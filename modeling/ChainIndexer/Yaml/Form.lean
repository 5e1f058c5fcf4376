import ChainIndexer.Text.Digit
import ChainIndexer.Yaml.Stamp
import ChainIndexer.Yaml.Tag

/-!
The forms of plain scalars in YAML 1.1. A plain scalar is a truth value, a number, a date or nothing
if it has the form of one, and a text otherwise; whole numbers may be binary, octal, hexadecimal or
in base sixty. `Tag.ofPlain` tells which form a text has. What value that is, if it is one, is
another matter: `2001-02-30` has the form of a date.
-/

namespace ChainIndexer.Yaml

def nullWords : List String := ["", "~", "null", "Null", "NULL"]

def truthWords : List String :=
  ["yes", "Yes", "YES", "no", "No", "NO", "true", "True", "TRUE", "false", "False", "FALSE",
    "on", "On", "ON", "off", "Off", "OFF"]

def infinityWords : List String := [".inf", ".Inf", ".INF"]

def nanWords : List String := [".nan", ".NaN", ".NAN"]

/-- Whether characters are digits of a class or underscores, and at least one. -/
def isRow (isDigit : Char → Bool) (cs : List Char) : Bool :=
  !cs.isEmpty && cs.all fun c => isDigit c || c == '_'

/-- Whether a character is a decimal digit or an underscore. -/
def isPlace (c : Char) : Bool :=
  c.isDigit || c == '_'

/-- Whether characters are a decimal digit and then digits or underscores. -/
def isDecimalRow : List Char → Bool
  | c :: cs => c.isDigit && cs.all isPlace
  | [] => false

/-- Whether characters are a part of a number in base sixty behind the first one. -/
def isSixtieth : List Char → Bool
  | [d] => d.isDigit
  | [c, d] => '0' ≤ c && c ≤ '5' && d.isDigit
  | _ => false

/-- Whether a text is a number in base sixty: a decimal one and at least one part behind it. -/
def isSixtieths (cs : List Char) : Bool :=
  match cs.splitOn ':' with
  | first :: rest => isDecimalRow first && !rest.isEmpty && rest.all isSixtieth
  | [] => false

/-- Whether a text has the form of a whole number without a sign. -/
def isWholeForm (cs : List Char) : Bool :=
  match cs with
  | '0' :: 'b' :: ds => isRow (fun c => c == '0' || c == '1') ds
  | '0' :: 'x' :: ds => isRow (fun c => (Text.hexDigit? c).isSome) ds
  | ['0'] => true
  | '0' :: ds => isRow (fun c => '0' ≤ c && c ≤ '7') ds
  | _ => isDecimalRow cs || isSixtieths cs

/-- Whether a text is nothing or the exponent of a fraction, which has a sign. -/
def isExponent : List Char → Bool
  | [] => true
  | e :: sign :: ds =>
    (e == 'e' || e == 'E') && (sign == '-' || sign == '+') && !ds.isEmpty && ds.all Char.isDigit
  | _ => false

/-- Whether a text has the form of a fraction, which has a point, without a sign. What stands before
the point may be in base sixty if there is no exponent. -/
def isFraction (cs : List Char) : Bool :=
  match cs.dropWhile (· != '.') with
  | _ :: rest =>
    let whole := cs.takeWhile (· != '.')
    (isDecimalRow whole && isExponent (rest.dropWhile isPlace))
      || (isSixtieths whole && rest.all isPlace)
  | [] => false

/-- Whether a text is a point and the digits behind it, with an exponent or none. -/
def isPointed : List Char → Bool
  | '.' :: rest => isDecimalRow (rest.takeWhile isPlace) && isExponent (rest.dropWhile isPlace)
  | _ => false

/-- What follows a sign, or a text without one. -/
def unsigned : List Char → List Char
  | '-' :: cs => cs
  | '+' :: cs => cs
  | cs => cs

/-- Whether a text has the form of a binary64 number. One that begins with its point has no sign. -/
def isFloatForm (cs : List Char) : Bool :=
  isFraction (unsigned cs) || isPointed cs || infinityWords.contains (String.ofList (unsigned cs))
    || nanWords.contains (String.ofList cs)

/-- Whether a text has the form of a date. Without a time, all its parts have two digits at least.
-/
def isStampForm (cs : List Char) : Bool :=
  match Stamp.read? cs with
  | some s => s.clock.isSome || cs.length == 10
  | none => false

/-- A text without a line feed at its end, with which every form but the empty one may end. -/
def withoutFeed (cs : List Char) : List Char :=
  if 1 < cs.length && cs.getLast? == some '\n' then cs.dropLast else cs

/-- What a scalar without a tag stands for. -/
def Tag.ofPlain (text : String) : Tag :=
  let cs := withoutFeed text.toList
  let s := String.ofList cs
  if nullWords.contains s then .null
  else if truthWords.contains s then .bool
  else if isFloatForm cs then .float
  else if isWholeForm (unsigned cs) then .int
  else if isStampForm cs then .timestamp
  else if s = "<<" then .merge
  else if s = "=" then .value
  else if s = "!" ∨ s = "&" ∨ s = "*" then .unknown
  else .str

end ChainIndexer.Yaml
