import ChainIndexer.Yaml.Block
import ChainIndexer.Yaml.Plain
import ChainIndexer.Yaml.Quoted
import ChainIndexer.Yaml.Token

/-!
Reading the tokens of a text. Whether a node is the key of an entry is seen only at the colon behind
it: until then it is a candidate, and the token that makes it a key is put in front of it later. A
candidate stays one on its line and for `keyLength` characters. The node that begins in the column
of a mapping has to be a key, so it is a fault if no colon comes.
-/

namespace ChainIndexer.Yaml

structure Place where
  index : Nat := 0
  line : Nat := 0
  column : Nat := 0

/-- The place behind a character. A byte order mark takes no column. -/
def Place.next (p : Place) (c : Char) : Place :=
  if isBreak c then ⟨p.index + 1, p.line + 1, 0⟩
  else if c == '\uFEFF' then { p with index := p.index + 1 }
  else { p with index := p.index + 1, column := p.column + 1 }

/-- How far the colon may be from the start of its key. -/
def keyLength : Nat := 1024

/-- A node that may be a key: the number of tokens before it, where it begins, and whether it has to
be one. -/
structure Candidate where
  before : Nat
  place : Place
  required : Bool

/-- Whether it is too late for a candidate to become a key at a place. -/
def Candidate.isStale (c : Candidate) (p : Place) : Bool :=
  c.place.line != p.line || c.place.index + keyLength < p.index

/-- The state of reading: what is left, the columns of the open blocks from the innermost on,
whether a key may begin here, the candidate between the innermost brackets and those outside of
them, and the tokens read so far, last first. -/
structure Lexer where
  rest : List Char
  place : Place := {}
  indents : List Nat := []
  keyAllowed : Bool := true
  candidate : Option Candidate := none
  outer : List (Option Candidate) := []
  tokens : List Token := []
  count : Nat := 0

namespace Lexer

def inFlow (s : Lexer) : Bool :=
  !s.outer.isEmpty

/-- The least column for the lines of a scalar in the innermost block. -/
def least (s : Lexer) : Nat :=
  (s.indents.head?.map (· + 1)).getD 0

/-- The tokens that no candidate holds back. -/
def settled (s : Lexer) : List Token :=
  let waiting := ((s.candidate :: s.outer).filterMap id).filter fun c => !c.isStale s.place
  s.tokens.reverse.take (waiting.foldl (fun n c => min n c.before) s.count)

end Lexer

/-- A step of reading. -/
abbrev Lex (α : Type) := StateT Lexer (Except Problem) α

namespace Lex

/-- The text has no tokens. -/
def refuse {α : Type} : Lex α := throw .notYaml

def advance (n : Nat) : Lex Unit :=
  modify fun s =>
    { s with rest := s.rest.drop n, place := (s.rest.take n).foldl Place.next s.place }

/-- Goes on where only the given characters are left. -/
def goTo (rest : List Char) : Lex Unit := do
  advance ((← get).rest.length - rest.length)

def emit (t : Token) : Lex Unit :=
  modify fun s => { s with tokens := t :: s.tokens, count := s.count + 1 }

/-- Adds a token behind the first ones. -/
def insert (before : Nat) (t : Token) : Lex Unit :=
  modify fun s =>
    let behind := s.count - before
    { s with tokens := s.tokens.take behind ++ t :: s.tokens.drop behind, count := s.count + 1 }

/-- Says whether a key may begin from here on. -/
def allowKey (b : Bool) : Lex Unit :=
  modify fun s => { s with keyAllowed := b }

/-- Closes the blocks that begin behind a column, or all of them. Between brackets the indentation
does not matter. -/
def closeBlocks (column : Option Nat) : Lex Unit := do
  let s ← get
  if !s.inFlow then
    let ends (k : Nat) : Bool := column.all (· < k)
    set { s with indents := s.indents.dropWhile ends }
    (s.indents.takeWhile ends).forM fun _ => emit .closeBlock

/-- Opens a block in a column, unless one that begins there or behind it is open. -/
def openBlock (column before : Nat) (t : Token) : Lex Unit := do
  let s ← get
  if s.indents.head?.all (· < column) then
    set { s with indents := column :: s.indents }
    insert before t

/-- A candidate after it has failed to become a key. -/
def failed (c : Option Candidate) : Lex (Option Candidate) :=
  if (c.map (·.required)).getD false then refuse else return none

def dropCandidate : Lex Unit := do
  let candidate ← failed (← get).candidate
  modify fun s => { s with candidate }

def dropStale : Lex Unit := do
  let s ← get
  let settle (c : Option Candidate) : Lex (Option Candidate) :=
    if (c.map (·.isStale s.place)).getD false then failed c else return c
  let candidate ← settle s.candidate
  let outer ← s.outer.mapM settle
  set { s with candidate, outer }

/-- Makes the node that begins here a candidate, if a key may begin here. -/
def saveCandidate : Lex Unit := do
  let s ← get
  if s.keyAllowed then
    dropCandidate
    let required := !s.inFlow && s.indents.head? == some s.place.column
    modify fun t => { t with candidate := some ⟨s.count, s.place, required⟩ }

/-- What follows spaces, line breaks and comments. -/
def behindBlanks : (comment : Bool) → List Char → List Char
  | _, [] => []
  | comment, c :: cs =>
    if isBreak c then behindBlanks false cs
    else if comment || c == '#' then behindBlanks true cs
    else if c == ' ' then behindBlanks false cs
    else c :: cs

/-- Passes over what stands between tokens. Outside of brackets a key may begin in a new line. A
byte order mark counts for nothing at the start of the text. -/
def skip : Lex Unit := do
  let s ← get
  if s.place.index = 0 ∧ s.rest.head? = some '\uFEFF' then advance 1
  goTo (behindBlanks false (← get).rest)
  if !s.inFlow && s.place.line < (← get).place.line then allowKey true

/-- A mark between documents, or a directive, before which all blocks end. -/
def betweenDocuments (read : List Char → Except Problem (Token × List Char)) : Lex Unit := do
  closeBlocks none
  dropCandidate
  allowKey false
  let (t, rest) ← read (← get).rest
  goTo rest
  emit t

def openFlow (t : Token) : Lex Unit := do
  saveCandidate
  modify fun s => { s with candidate := none, outer := s.candidate :: s.outer, keyAllowed := true }
  advance 1
  emit t

def closeFlow (t : Token) : Lex Unit := do
  dropCandidate
  match (← get).outer with
  | [] => refuse
  | candidate :: outer => modify fun s => { s with candidate, outer, keyAllowed := false }
  advance 1
  emit t

def comma : Lex Unit := do
  allowKey true
  dropCandidate
  advance 1
  emit .comma

/-- A dash. In a block it opens a sequence, if none begins in its column. -/
def dash : Lex Unit := do
  let s ← get
  if !s.inFlow then
    if !s.keyAllowed then refuse
    openBlock s.place.column s.count .openSequence
  allowKey true
  dropCandidate
  advance 1
  emit .dash

/-- A question mark, which tells that a key follows. In a block it opens a mapping, if none begins
in its column. -/
def questionMark : Lex Unit := do
  let s ← get
  if !s.inFlow then
    if !s.keyAllowed then refuse
    openBlock s.place.column s.count .openMapping
  allowKey (!s.inFlow)
  dropCandidate
  advance 1
  emit .key

/-- A colon. The candidate becomes a key, and opens a mapping in a block, if none begins in its
column. Without a candidate the colon stands for itself, as a dash does. -/
def colon : Lex Unit := do
  let s ← get
  match s.candidate with
  | some c =>
    modify fun t => { t with candidate := none }
    insert c.before .key
    if !s.inFlow then openBlock c.place.column c.before .openMapping
    allowKey false
  | none =>
    if !s.inFlow then
      if !s.keyAllowed then refuse
      openBlock s.place.column s.count .openMapping
    allowKey (!s.inFlow)
  advance 1
  emit .colon

/-- A token that may be a key or begin one. -/
def inKey (read : List Char → Except Problem (Token × List Char)) : Lex Unit := do
  saveCandidate
  allowKey false
  let (t, rest) ← read (← get).rest
  goTo rest
  emit t

/-- Whether the name of an anchor may end before a text. -/
def endsName : List Char → Bool
  | [] => true
  | c :: _ => isBlank c || isBreak c || "?:,]\x7d%@`".toList.contains c

/-- The name of an anchor or an alias, behind its mark. -/
def anchorName (cs : List Char) : Except Problem (String × List Char) :=
  let name := cs.takeWhile isWordChar
  let rest := cs.dropWhile isWordChar
  if name.isEmpty || !endsName rest then .error .notYaml else .ok (String.ofList name, rest)

/-- A quoted scalar as a token. -/
def quoted (read : (fuel : Nat) → List Char → Except Problem (List Char × List Char))
    (cs : List Char) : Except Problem (Token × List Char) :=
  (read (cs.length + 1) cs).map fun (text, rest) => (.scalar false (String.ofList text), rest)

/-- A block scalar, behind which a key may begin. -/
def block (folded : Bool) (body : List Char) : Lex Unit := do
  allowKey true
  dropCandidate
  let (text, rest) ← blockScalar folded (max 1 (← get).least) body
  goTo rest
  emit (.scalar false (String.ofList text))

/-- A plain scalar. If a line break follows it, a key may begin there. -/
def plain : Lex Unit := do
  saveCandidate
  let s ← get
  let (text, broken, rest) := plainFrom s.inFlow s.least (s.rest.length + 1) s.rest
  allowKey broken
  goTo rest
  emit (.scalar true (String.ofList text))

/-- Reads the tokens up to the next one in the text; tells whether the text is at its end. -/
def step : Lex Bool := do
  skip
  dropStale
  let s ← get
  closeBlocks (some s.place.column)
  let atStart := s.place.column == 0
  match s.rest with
  | [] =>
    closeBlocks none
    dropCandidate
    return true
  | c :: cs =>
    if atStart && c == '%' then
      betweenDocuments fun _ => (Directive.read cs).map fun (d, rest) => (.directive d, rest)
    else if atStart && isMark s.rest then
      let mark := if c == '-' then .documentStart else .documentEnd
      betweenDocuments fun cs => .ok (mark, cs.drop 3)
    else match c with
      | '[' => openFlow .openBracket
      | '\x7b' => openFlow .openBrace
      | ']' => closeFlow .closeBracket
      | '\x7d' => closeFlow .closeBrace
      | ',' => comma
      | '*' => inKey fun _ => (anchorName cs).map fun (name, rest) => (.alias name, rest)
      | '&' => inKey fun _ => (anchorName cs).map fun (name, rest) => (.anchor name, rest)
      | '!' => inKey fun _ => (TagName.read cs).map fun (t, rest) => (.tag t, rest)
      | '\'' => inKey fun _ => quoted singleQuoted cs
      | '"' => inKey fun _ => quoted doubleQuoted cs
      | _ =>
        if c == '-' && isOpen cs then dash
        else if c == '?' && (s.inFlow || isOpen cs) then questionMark
        else if c == ':' && (s.inFlow || isOpen cs) then colon
        else if c == '|' && !s.inFlow then block false cs
        else if c == '>' && !s.inFlow then block true cs
        else if beginsPlain s.inFlow s.rest then plain
        else refuse
    return false

end Lex

/-- The tokens from a state of reading on. `fuel` bounds the number of steps. -/
def Lexer.run (s : Lexer) : (fuel : Nat) → Tokens
  | 0 => ⟨s.settled, some .notYaml⟩
  | fuel + 1 =>
    match Lex.step.run s with
    | .error e => ⟨s.settled, some e⟩
    | .ok (true, s) => ⟨s.tokens.reverse, none⟩
    | .ok (false, s) => s.run fuel

/-- The tokens of a text. -/
def Tokens.ofChars (cs : List Char) : Tokens :=
  Lexer.run { rest := cs } (cs.length + 1)

end ChainIndexer.Yaml
