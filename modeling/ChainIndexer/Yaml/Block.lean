import ChainIndexer.Yaml.Line

/-!
Block scalars of YAML, whose lines stand below their mark and are indented further than the block
around them. In a folded one a line break between two lines that begin with no blank is a space, and
further line breaks after it stay.
-/

namespace ChainIndexer.Yaml

/-- What becomes of the line breaks at the end of a block scalar. -/
inductive Chomp where
  | strip | clip | keep
  deriving DecidableEq, Repr

/-- The indicators of a block scalar: what becomes of its end, and how far it is indented. -/
structure BlockHeader where
  chomp : Chomp := .clip
  indent : Option Nat := none

/-- The effect of a sign among the indicators. -/
def chompOf? : Char → Option Chomp
  | '+' => some .keep
  | '-' => some .strip
  | _ => none

/-- Reads the indicators of a block scalar. -/
def blockHeader (cs : List Char) : Except Problem (BlockHeader × List Char) :=
  let digit? (c : Char) : Option Nat := if c.isDigit then some (c.toNat - '0'.toNat) else none
  match cs with
  | c :: rest =>
    match chompOf? c, digit? c with
    | some chomp, _ =>
      match rest with
      | d :: more =>
        match digit? d with
        | some 0 => .error .notYaml
        | some n => .ok (⟨chomp, some n⟩, more)
        | none => .ok (⟨chomp, none⟩, rest)
      | [] => .ok (⟨chomp, none⟩, rest)
    | none, some 0 => .error .notYaml
    | none, some n =>
      match rest with
      | d :: more =>
        match chompOf? d with
        | some chomp => .ok (⟨chomp, some n⟩, more)
        | none => .ok (⟨.clip, some n⟩, rest)
      | [] => .ok (⟨.clip, some n⟩, rest)
    | none, none => .ok ({}, cs)
  | [] => .ok ({}, cs)

/-- The greatest indentation of the empty lines in front of a block and of its first line. -/
def leadingIndent : (column greatest : Nat) → List Char → Nat
  | column, greatest, ' ' :: cs => leadingIndent (column + 1) (max greatest (column + 1)) cs
  | _, greatest, c :: cs => if isBreak c then leadingIndent 0 greatest cs else greatest
  | _, greatest, [] => greatest

/-- Drops up to `indent` spaces of a line; gives how many there were. -/
def dropIndent : (indent : Nat) → List Char → Nat × List Char
  | indent + 1, ' ' :: cs => ((dropIndent indent cs).1 + 1, (dropIndent indent cs).2)
  | _, cs => (0, cs)

/-- The empty lines at the head of a text, the column at which the next line goes on, and what
follows. -/
def emptyLines (indent : Nat) : (fuel : Nat) → List Char → List Char × Nat × List Char
  | 0, cs => ([], 0, cs)
  | fuel + 1, cs =>
    match dropIndent indent cs with
    | (_, c :: rest) =>
      if isBreak c then
        let (bs, column, r) := emptyLines indent fuel rest
        (normalBreak c :: bs, column, r)
      else ([], (dropIndent indent cs).1, (dropIndent indent cs).2)
    | (column, []) => ([], column, [])

/-- The lines of a block scalar from one of them on, of which the line break of the line before and
the empty lines after it are known. Gives the text, the last line break, the empty lines behind it
and what follows. -/
def blockLines (folded : Bool) (indent : Nat) : (fuel : Nat) → List Char →
    List Char × List Char × List Char × List Char
  | 0, cs => ([], [], [], cs)
  | fuel + 1, cs =>
    let blankFirst := isOpen cs
    let line := cs.takeWhile (!isBreak ·)
    match cs.dropWhile (!isBreak ·) with
    | [] => (line, [], [], [])
    | c :: rest =>
      let (empty, column, after) := emptyLines indent (rest.length + 1) rest
      if column = indent && !after.isEmpty then
        let joint :=
          if folded && normalBreak c == '\n' && !blankFirst && !isOpen after then
            if empty.isEmpty then [' '] else []
          else [normalBreak c]
        let (more, last, trailing, r) := blockLines folded indent fuel after
        (line ++ joint ++ empty ++ more, last, trailing, r)
      else (line, [normalBreak c], empty, rest)

/-- A block scalar inside a block that is indented by less than `least`; gives the text and what
follows, from the start of a line on. -/
def blockScalar (folded : Bool) (least : Nat) (cs : List Char) :
    Except Problem (List Char × List Char) := do
  let (header, cs) ← blockHeader cs
  if !isClosed cs then throw .notYaml
  let cs ← restOfLine cs
  let indent := match header.indent with
    | some n => least + n - 1
    | none => max least (leadingIndent 0 0 cs)
  let (empty, column, after) := emptyLines indent (cs.length + 1) cs
  if column = indent && !after.isEmpty then
    let (body, last, trailing, r) := blockLines folded indent (after.length + 1) after
    let tail := match header.chomp with
      | .strip => []
      | .clip => last
      | .keep => last ++ trailing
    return (empty ++ body ++ tail, r)
  else return (if header.chomp = .keep then empty else [], cs)

end ChainIndexer.Yaml
