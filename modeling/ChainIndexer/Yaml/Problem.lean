import ChainIndexer.Fault
import ChainIndexer.Number.Numeral
import ChainIndexer.Text.Quoted

/-!
Why a text of YAML cannot be read. Most texts that cannot be read break a rule of YAML; the other
problems are those of single scalars, and they say what the scalar is taken for.
-/

namespace ChainIndexer.Yaml

/-- What there is not in a date or in its zone, given by the minutes that it is off. -/
inductive StampProblem where
  | year (n : Nat)
  | month
  | day
  | hour
  | minute
  | second
  | zone (minutes : Int)
  deriving DecidableEq, Repr

/-- Why a text cannot be read. -/
inductive Problem where
  /-- A rule of YAML is broken. -/
  | notYaml
  /-- Collections are nested too deep. -/
  | tooDeep
  /-- No character has the code of an escape. -/
  | noCharacter
  /-- The code of an escape is no word with a sign. -/
  | wideCode
  | noDigits
  | noNumeral (base : Nat) (text : String)
  /-- A numeral with too many digits. -/
  | longNumeral (digits : Nat)
  | noDecimal (text : String)
  /-- A part of a number in base sixty is out of range. -/
  | greatWeight
  | noTruthValue
  | noStamp
  | badStamp (p : StampProblem)
  deriving DecidableEq, Repr

/-- A length of time in a message, in days and in seconds, of which the seconds are never less than
zero. -/
def shownMinutes (minutes : Int) : String :=
  let days := "days=" ++ Numeral.decimal (minutes.fdiv 1440)
  let seconds := minutes.fmod 1440 * 60
  let rest := if seconds = 0 then "" else ", seconds=" ++ Numeral.decimal seconds
  "datetime.timedelta(" ++ days ++ rest ++ ")"

def StampProblem.text : StampProblem → String
  | .year n => "year " ++ Numeral.natural n ++ " is out of range"
  | .month => "month must be in 1..12"
  | .day => "day is out of range for month"
  | .hour => "hour must be in 0..23"
  | .minute => "minute must be in 0..59"
  | .second => "second must be in 0..59"
  | .zone minutes =>
    "offset must be a timedelta strictly between -timedelta(hours=24) and timedelta(hours=24), not "
      ++ shownMinutes minutes ++ "."

namespace Problem

/-- The refusal that a problem is. -/
def fault : Problem → Fault
  | .notYaml => .notYaml
  | .tooDeep => .tooDeep
  | .wideCode | .greatWeight => .overflow
  | .noDigits => .badIndex
  | .noTruthValue => .missingKey
  | .noStamp => .wrongType
  | .noCharacter | .noNumeral .. | .longNumeral _ | .noDecimal _ | .badStamp _ => .badValue

/-- How much of a text is shown that is no numeral. -/
def shownLength : Nat := 200

/-- The wording of a problem, where it has one. -/
def text : Problem → String
  | .tooDeep => "maximum recursion depth exceeded"
  | .noCharacter => "chr() arg not in range(0x110000)"
  | .noNumeral base text =>
    "invalid literal for int() with base " ++ Numeral.natural base ++ ": "
      ++ String.ofList ((Text.quoted text).toList.take shownLength)
  | .longNumeral digits =>
    "Exceeds the limit (" ++ Numeral.natural Numeral.maxDigits
      ++ " digits) for integer string conversion: value has " ++ Numeral.natural digits
      ++ " digits; use sys.set_int_max_str_digits() to increase the limit"
  | .noDecimal text => "could not convert string to float: " ++ Text.quoted text
  | .badStamp p => p.text
  | _ => "invalid value"

end Problem

end ChainIndexer.Yaml
