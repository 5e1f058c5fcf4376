import ChainIndexer.Fault
import ChainIndexer.Number.Binary64
import ChainIndexer.Text.Letter
import ChainIndexer.Value

/-!
The level from which on messages are logged. It is given as a number or as a name in letters of any
case; a name that is none stands for `info`. The loggers of the connections are kept at `warning`,
or at the general level if that is higher.
-/

namespace ChainIndexer.Settings

def infoLevel : Int := 20

def warningLevel : Int := 30

def levelNames : List (String × Int) :=
  [("CRITICAL", 50), ("FATAL", 50), ("ERROR", 40), ("WARN", warningLevel),
    ("WARNING", warningLevel), ("INFO", infoLevel), ("DEBUG", 10), ("NOTSET", 0)]

def levelOfName (name : String) : Int :=
  ((levelNames.find? fun l => l.1 == Text.toUpper name).map (·.2)).getD infoLevel

/-- The levels of the loggers: the general one, and the one of the connections. A level that has not
been set is zero. -/
structure LogLevels where
  root : Whole
  connections : Whole
  deriving DecidableEq, Repr

/-- The levels before they are set. -/
def LogLevels.initial : LogLevels := ⟨.number warningLevel, .number 0⟩

/-- Sets both levels by a general one. -/
def LogLevels.ofWhole (level : Whole) : LogLevels :=
  ⟨level, if warningLevel > level.toInt then .number warningLevel else level⟩

/-- The levels for a value in the place of a general level, or the fault for one that is none. -/
def LogLevels.ofValue (level : Value) : Except Fault LogLevels :=
  match level with
  | .text name => .ok (ofWhole (.number (levelOfName name)))
  | .int n => .ok (ofWhole (.number n))
  | .bool b => .ok (ofWhole (.flag b))
  | _ => .error .wrongType

end ChainIndexer.Settings
