import ChainIndexer.Yaml.Line

/-!
Plain scalars of YAML, which have no quotes. Words of a plain scalar are divided by spaces or by
line breaks; a colon before a blank ends it, as does a number sign behind one, and between brackets
every bracket, comma and question mark. A tab ends it too.
-/

namespace ChainIndexer.Yaml

def isFlowMark (c : Char) : Bool :=
  c == ',' || c == '[' || c == ']' || c == '\x7b' || c == '\x7d'

/-- Characters with which no plain scalar begins. -/
def indicators : List Char := "-?:,[]\x7b\x7d#&*!|>'\"%@`".toList

/-- Whether a plain scalar may begin with a text. -/
def beginsPlain (flow : Bool) : List Char → Bool
  | [] => false
  | c :: cs =>
    if isBlank c || isBreak c then false
    else !indicators.contains c || (!isOpen cs && (c == '-' || (!flow && (c == '?' || c == ':'))))

/-- Whether a word of a plain scalar ends before a text. -/
def endsWord (flow : Bool) : List Char → Bool
  | [] => true
  | c :: cs =>
    isBlank c || isBreak c
      || (c == ':' && (isOpen cs || (flow && (cs.head?.map isFlowMark).getD false)))
      || (flow && (c == '?' || isFlowMark c))

/-- The characters of a plain scalar up to the next blank or mark, and what follows. -/
def plainWord (flow : Bool) : List Char → List Char × List Char
  | [] => ([], [])
  | c :: cs =>
    if endsWord flow (c :: cs) then ([], c :: cs)
    else ((c :: (plainWord flow cs).1), (plainWord flow cs).2)

/-- What stands behind a word of a plain scalar: spaces, or line breaks with spaces among them. -/
inductive PlainGap where
  | spaces (cs : List Char)
  /-- The breaks, and the column behind them. -/
  | lines (breaks : List Char) (column : Nat)
  /-- Breaks up to a mark between documents, with which no line of a scalar begins. -/
  | mark

/-- The line breaks and spaces at the head of a text, and what follows them. -/
def plainBreaks : (column : Nat) → List Char → PlainGap × List Char
  | column, [] => (.lines [] column, [])
  | column, c :: cs =>
    if isBreak c then
      if isMark cs then (.mark, cs)
      else match plainBreaks 0 cs with
        | (.lines breaks k, rest) => (.lines (normalBreak c :: breaks) k, rest)
        | found => found
    else if c == ' ' then plainBreaks (column + 1) cs
    else (.lines [] column, c :: cs)

/-- The gap at the head of a text, and what follows it. -/
def plainGap (cs : List Char) : PlainGap × List Char :=
  let rest := cs.dropWhile (· == ' ')
  match rest with
  | c :: _ => if isBreak c then plainBreaks 0 rest else (.spaces (cs.takeWhile (· == ' ')), rest)
  | [] => (.spaces (cs.takeWhile (· == ' ')), rest)

/-- What a gap stands for inside a scalar, if the scalar may go on behind it. Outside of brackets it
does not go on in a line that begins before the column `least`. -/
def PlainGap.inside? (flow : Bool) (least : Nat) : PlainGap → Option (List Char)
  | .spaces [] => none
  | .spaces cs => some cs
  | .lines (first :: more) column =>
    if !flow && column < least then none else some (fold first more)
  | .lines [] _ => none
  | .mark => none

def PlainGap.isBroken : PlainGap → Bool
  | .spaces _ => false
  | _ => true

/-- A plain scalar: its text, whether a line break stands behind it, and what follows that gap.
`fuel` bounds the number of its words. -/
def plainFrom (flow : Bool) (least : Nat) : (fuel : Nat) → List Char →
    List Char × Bool × List Char
  | 0, cs => ([], false, cs)
  | fuel + 1, cs =>
    let (word, after) := plainWord flow cs
    let (gap, rest) := plainGap after
    match gap.inside? flow least with
    | none => (word, gap.isBroken, rest)
    | some between =>
      if rest.head? == some '#' || endsWord flow rest then (word, gap.isBroken, rest)
      else
        let (more, broken, rest) := plainFrom flow least fuel rest
        (word ++ between ++ more, broken, rest)

end ChainIndexer.Yaml
