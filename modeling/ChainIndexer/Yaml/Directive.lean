import ChainIndexer.Number.Numeral
import ChainIndexer.Yaml.Tag

/-!
Directives, which stand in front of a document: the version of YAML that it is written in, and the
meaning of a tag handle. Other directives mean nothing.
-/

namespace ChainIndexer.Yaml

inductive Directive where
  | version (major : Nat)
  | handle (name meaning : String)
  | other
  deriving DecidableEq, Repr

/-- A part of a version at the head of a text, and what follows it. Too long a number is no number.
-/
def versionPart (cs : List Char) : Except Problem (Nat × List Char) :=
  let ds := cs.takeWhile Char.isDigit
  if ds.isEmpty then .error .notYaml
  else if Numeral.maxDigits < ds.length then .error (.longNumeral ds.length)
  else .ok (Numeral.ofDigits 10 (ds.filterMap Text.digit?), cs.dropWhile Char.isDigit)

/-- A version, of which the second part does not matter. -/
def readVersion (cs : List Char) : Except Problem (Directive × List Char) := do
  match ← versionPart cs with
  | (major, '.' :: rest) =>
    let (_, rest) ← versionPart rest
    if !isClosed rest then throw .notYaml
    return (.version major, rest)
  | _ => throw .notYaml

/-- A handle and its meaning. -/
def readHandle (cs : List Char) : Except Problem (Directive × List Char) := do
  match cs with
  | '!' :: rest =>
    let (name, rest) ← tagHandle rest
    if rest.head? ≠ some ' ' then throw .notYaml
    let (meaning, rest) ← tagText (rest.dropWhile (· == ' '))
    if !isClosed rest then throw .notYaml
    return (.handle name meaning, rest)
  | _ => throw .notYaml

/-- A directive, behind its mark, and what follows its line. -/
def Directive.read (cs : List Char) : Except Problem (Directive × List Char) := do
  let name := cs.takeWhile isWordChar
  let rest := cs.dropWhile isWordChar
  if name.isEmpty || !isClosed rest then throw .notYaml
  let body := rest.dropWhile (· == ' ')
  let (directive, rest) ← match String.ofList name with
    | "YAML" => readVersion body
    | "TAG" => readHandle body
    | _ => .ok (.other, rest.dropWhile (!isBreak ·))
  return (directive, ← restOfLine rest)

end ChainIndexer.Yaml
