import ChainIndexer.Yaml.Problem

/-!
Blanks, line breaks and words of YAML. Lines end with a line feed, or with one of the characters
U+0085, U+2028 and U+2029, of which the last two are kept where a line break stands for itself.
-/

namespace ChainIndexer.Yaml

def isBreak (c : Char) : Bool :=
  c == '\n' || c == '\u0085' || c == '\u2028' || c == '\u2029'

/-- A line break as it stands in a text. -/
def normalBreak (c : Char) : Char :=
  if c == '\u0085' then '\n' else c

def isBlank (c : Char) : Bool :=
  c == ' ' || c == '\t'

/-- Whether a text is at its end or goes on with a blank or a line break. -/
def isOpen : List Char → Bool
  | [] => true
  | c :: _ => isBlank c || isBreak c

def isMark : List Char → Bool
  | '-' :: '-' :: '-' :: rest => isOpen rest
  | '.' :: '.' :: '.' :: rest => isOpen rest
  | _ => false

/-- Whether a text is at its end or goes on with a space or a line break, but with no tab. -/
def isClosed : List Char → Bool
  | [] => true
  | c :: _ => c == ' ' || isBreak c

/-- Characters of the names of anchors, directives and tag handles. -/
def isWordChar (c : Char) : Bool :=
  c.isAlphanum || c == '-' || c == '_'

/-- What a line break and the empty lines after it stand for. -/
def fold (c : Char) (more : List Char) : List Char :=
  if normalBreak c ≠ '\n' then c :: more else if more.isEmpty then [' '] else more

/-- What follows the rest of a line, which holds spaces and a comment at most. -/
def restOfLine (cs : List Char) : Except Problem (List Char) :=
  let cs := cs.dropWhile (· == ' ')
  let cs := if cs.head? == some '#' then cs.dropWhile (!isBreak ·) else cs
  match cs with
  | [] => .ok []
  | c :: rest => if isBreak c then .ok rest else .error .notYaml

end ChainIndexer.Yaml
