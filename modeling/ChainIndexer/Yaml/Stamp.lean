import ChainIndexer.Yaml.Problem

/-!
Dates of YAML, with or without a time and a zone. `Stamp.read?` tells what the parts of a date are,
`Stamp.problem?` whether there is such a day, such a time and such a zone.
-/

namespace ChainIndexer.Yaml

/-- A time of a day: hour, minute and second. A fraction of a second does not matter. -/
structure Clock where
  hour : Nat
  minute : Nat
  second : Nat
  deriving DecidableEq, Repr

/-- A date, perhaps with a time, and how many minutes its zone is off. -/
structure Stamp where
  year : Nat
  month : Nat
  day : Nat
  clock : Option Clock := none
  offset : Int := 0
  deriving DecidableEq, Repr

namespace Stamp

/-- The number of some decimal digits at the head of a text, at least `low` and at most `high` of
them, and what follows. -/
def spanNumber? (low high : Nat) (cs : List Char) : Option (Nat × List Char) :=
  let ds := (cs.take high).takeWhile Char.isDigit
  if ds.length < low then none
  else some (ds.foldl (fun n d => n * 10 + (d.toNat - 0x30)) 0, cs.drop ds.length)

/-- What follows a character that a text begins with. -/
def after? (c : Char) : List Char → Option (List Char)
  | d :: cs => if c = d then some cs else none
  | [] => none

def dropBlanks (cs : List Char) : List Char :=
  cs.dropWhile fun c => c == ' ' || c == '\t'

/-- The minutes of a zone that a text consists of: `Z`, or a sign and hours, with or without
minutes. Blanks may stand before a zone, and there may be none at all. -/
def zone? (cs : List Char) : Option Int :=
  match dropBlanks cs with
  | [] => if cs.isEmpty then some 0 else none
  | ['Z'] => some 0
  | c :: rest =>
    if c = '+' ∨ c = '-' then do
      let (hours, rest) ← spanNumber? 1 2 rest
      match rest with
      | [] => some (Numeral.signed (c == '-') (hours * 60))
      | ':' :: rest =>
        let (minutes, rest) ← spanNumber? 2 2 rest
        if rest.isEmpty then some (Numeral.signed (c == '-') (hours * 60 + minutes)) else none
      | _ => none
    else none

/-- The time of a day and the zone that a text consists of. -/
def clock? (cs : List Char) : Option (Clock × Int) := do
  let cs ← match cs with
    | 'T' :: rest | 't' :: rest => some rest
    | ' ' :: rest | '\t' :: rest => some (dropBlanks rest)
    | _ => none
  let (hour, cs) ← spanNumber? 1 2 cs
  let (minute, cs) ← spanNumber? 2 2 (← after? ':' cs)
  let (second, cs) ← spanNumber? 2 2 (← after? ':' cs)
  let cs := match cs with
    | '.' :: rest => rest.dropWhile Char.isDigit
    | _ => cs
  return (⟨hour, minute, second⟩, ← zone? cs)

/-- The date that a text consists of. -/
def read? (cs : List Char) : Option Stamp := do
  let (year, rest) ← spanNumber? 4 4 cs
  let (month, rest) ← spanNumber? 1 2 (← after? '-' rest)
  let (day, rest) ← spanNumber? 1 2 (← after? '-' rest)
  if rest.isEmpty then return { year, month, day }
  else
    let (clock, offset) ← clock? rest
    return { year, month, day, clock := some clock, offset }

def daysOf (year month : Nat) : Nat :=
  if month = 2 then
    if year % 4 = 0 ∧ (year % 100 ≠ 0 ∨ year % 400 = 0) then 29 else 28
  else if month = 4 ∨ month = 6 ∨ month = 9 ∨ month = 11 then 30
  else 31

/-- Why there is no such time. -/
def Clock.problem? (c : Clock) : Option StampProblem :=
  if 24 ≤ c.hour then some .hour
  else if 60 ≤ c.minute then some .minute
  else if 60 ≤ c.second then some .second
  else none

/-- Why there is no such date. A zone is off by less than a day. -/
def problem? (s : Stamp) : Option StampProblem :=
  if 1440 ≤ s.offset.natAbs then some (.zone s.offset)
  else if s.year = 0 then some (.year s.year)
  else if s.month = 0 ∨ 12 < s.month then some .month
  else if s.day = 0 ∨ daysOf s.year s.month < s.day then some .day
  else s.clock.bind Clock.problem?

def parts (s : Stamp) : List Nat :=
  [s.year, s.month, s.day] ++ (s.clock.map fun c => [c.hour, c.minute, c.second]).getD []

end Stamp

end ChainIndexer.Yaml
