import ChainIndexer.Number.Decimal

/-!
Numbers as text in the fields of a record. These fields are more lenient than a numeral about what
surrounds the digits, and stricter about the digits themselves, which are ASCII: a whole number may
have a plus sign, zeros in front, single underscores between digits and a fraction of zeros.
-/

namespace ChainIndexer.Schema

/-- What becomes of a text in a field for a whole number. -/
inductive WholeText where
  | number (n : Int)
  | tooLong
  | refused
  deriving DecidableEq, Repr

/-- A text without the zeros in front, among which underscores may stand. A minus sign may come
behind them. A zero before a point stays, and so does one of nothing but zeros. -/
def dropZeros? : List Char → Option (List Char)
  | '0' :: rest =>
    let zeros := rest.takeWhile fun c => c == '0' || c == '_'
    match rest.dropWhile fun c => c == '0' || c == '_' with
    | [] => some [zeros.getLastD '0']
    | '.' :: more => some (zeros.getLastD '0' :: '.' :: more)
    | c :: more => if c.isDigit || c == '-' then some (c :: more) else none
  | c :: rest => if c.isDigit || c == '-' then some (c :: rest) else none
  | [] => none

/-- A text without the zeros behind its minus sign, or in front if it has none. -/
def dropLeadingZeros? : List Char → Option (List Char)
  | '-' :: rest => (dropZeros? rest).map ('-' :: ·)
  | cs => dropZeros? cs

/-- A text without its fraction, if that is one of zeros. A point with nothing behind it stays. -/
def dropFraction (cs : List Char) : List Char :=
  match cs.dropWhile (· != '.') with
  | _ :: '0' :: fraction => if fraction.all (· == '0') then cs.takeWhile (· != '.') else cs
  | _ => cs

/-- Whether an underscore stands first, last or beside another. -/
def misplacedUnderscore : (first : Bool) → List Char → Bool
  | first, '_' :: rest =>
    first || (match rest with
      | [] => true
      | c :: _ => c == '_') || misplacedUnderscore false rest
  | _, _ :: rest => misplacedUnderscore false rest
  | _, [] => false

/-- A text without its underscores, if all of them stand between two other characters. -/
def dropUnderscores (cs : List Char) : List Char :=
  if misplacedUnderscore true cs then cs else cs.filter (· != '_')

/-- Reads a minus sign or none and digits that do not begin with a superfluous zero. More than
`maxDigits` characters before anything else are too many. -/
def plainWhole (cs : List Char) : WholeText :=
  let (negative, body) := match cs with
    | '-' :: rest => (true, rest)
    | _ => (false, cs)
  let ds := body.takeWhile Char.isDigit
  let isPlain := match ds with
    | [] => false
    | '0' :: more => more.isEmpty
    | _ => true
  if !isPlain then .refused
  else if Numeral.maxDigits < cs.length - body.length + ds.length then .tooLong
  else if ds.length < body.length then .refused
  else .number (Numeral.signed negative (Decimal.ofDigits 0 ds))

/-- A text without its plus sign, after which no minus sign may follow. -/
def dropPlus? : List Char → Option (List Char)
  | '+' :: '-' :: _ => none
  | '+' :: rest => some rest
  | cs => some cs

/-- Reads the text of a field for a whole number. -/
def wholeText (s : String) : WholeText :=
  let cleaned : Option (List Char) := do
    let cs ← dropPlus? (Text.trim Text.isSpace s.toList)
    let cs ← dropLeadingZeros? cs
    return dropUnderscores (dropFraction cs)
  match cleaned with
  | some cs => plainWhole cs
  | none => .refused

/-- Reads the text of a field for a binary64 number. -/
def floatText? (s : String) : Option Float :=
  match Decimal.literal? (Text.trim Text.isSpace s.toList) with
  | some x => some x
  | none =>
    let cs := s.toList
    if cs.contains '_' && !misplacedUnderscore true cs then Decimal.literal? (cs.filter (· != '_'))
    else none

end ChainIndexer.Schema
