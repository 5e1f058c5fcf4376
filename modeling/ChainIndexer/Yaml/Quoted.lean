import ChainIndexer.Number.Power
import ChainIndexer.Text.Digit
import ChainIndexer.Yaml.Line

/-!
Quoted scalars of YAML. Each reader takes what follows the opening quote and gives the text and what
follows the closing one. A line break inside a quoted scalar is a space, and further line breaks
after it stay; a line break behind a backslash is nothing at all.
-/

namespace ChainIndexer.Yaml

/-- The line breaks at the start of a line of a quoted scalar, with the blanks between them dropped,
and what follows them. `fuel` bounds the number of lines. -/
def lineBreaks : (fuel : Nat) → List Char → Except Problem (List Char × List Char)
  | 0, _ => .error .notYaml
  | fuel + 1, cs =>
    if isMark cs then .error .notYaml
    else match cs.dropWhile isBlank with
      | c :: rest =>
        if isBreak c then (lineBreaks fuel rest).map fun (bs, r) => (normalBreak c :: bs, r)
        else .ok ([], c :: rest)
      | [] => .ok ([], [])

/-- The blanks at the head of a text, or what a line break with the blanks around it stands for. -/
def spaces (cs : List Char) : Except Problem (List Char × List Char) :=
  let blanks := cs.takeWhile isBlank
  match cs.dropWhile isBlank with
  | [] => .error .notYaml
  | c :: rest =>
    if isBreak c then
      (lineBreaks (rest.length + 1) rest).map fun (bs, r) => (fold c bs, r)
    else .ok (blanks, c :: rest)

/-- A scalar in single quotes, in which a quote is written twice. -/
def singleQuoted : (fuel : Nat) → List Char → Except Problem (List Char × List Char)
  | 0, _ => .error .notYaml
  | _, [] => .error .notYaml
  | fuel + 1, '\'' :: '\'' :: rest =>
    (singleQuoted fuel rest).map fun (cs, r) => ('\'' :: cs, r)
  | _ + 1, '\'' :: rest => .ok ([], rest)
  | fuel + 1, c :: rest =>
    if isBlank c || isBreak c then do
      let (gap, rest) ← spaces (c :: rest)
      let (cs, r) ← singleQuoted fuel rest
      return (gap ++ cs, r)
    else (singleQuoted fuel rest).map fun (cs, r) => (c :: cs, r)

/-- The character of an escape with a single letter. -/
def escape? : Char → Option Char
  | '0' => some '\x00'
  | 'a' => some '\x07'
  | 'b' => some '\x08'
  | 't' => some '\t'
  | '\t' => some '\t'
  | 'n' => some '\n'
  | 'v' => some '\x0b'
  | 'f' => some '\x0c'
  | 'r' => some '\r'
  | 'e' => some '\x1b'
  | ' ' => some ' '
  | '"' => some '"'
  | '\\' => some '\\'
  | '/' => some '/'
  | 'N' => some '\u0085'
  | '_' => some '\u00a0'
  | 'L' => some '\u2028'
  | 'P' => some '\u2029'
  | _ => none

/-- How many digits follow the letter of an escape by a code. -/
def codeLength? : Char → Option Nat
  | 'x' => some 2
  | 'u' => some 4
  | 'U' => some 8
  | _ => none

/-- The code of `k` hexadecimal digits, if it is one of a character. A code too great for a signed
word is told apart from one that is only greater than all characters. -/
def codeOf (k : Nat) (cs : List Char) : Except Problem Nat :=
  match (cs.take k).mapM Text.hexDigit? with
  | some ds =>
    let n := ds.foldl (fun n d => n * 16 + d) 0
    if ds.length < k then .error .notYaml
    else if 2 ^ 31 ≤ n then .error .wideCode
    else if 0x110000 ≤ n then .error .noCharacter
    else .ok n
  | none => .error .notYaml

/-- The second half of a surrogate pair, if an escape for one stands at the head of a text, and what
follows it. -/
def secondHalf? : List Char → Option (Nat × List Char)
  | '\\' :: c :: cs => do
    let k ← codeLength? c
    match codeOf k cs with
    | .ok n => if 0xDC00 ≤ n ∧ n < 0xE000 then some (n - 0xDC00, cs.drop k) else none
    | .error _ => none
  | _ => none

/-- The character with a code, and what follows it. Two halves of a surrogate pair are one character
together; one without the other is none, and is replaced. -/
def coded (n : Nat) (rest : List Char) : Char × List Char :=
  if 0xD800 ≤ n ∧ n < 0xDC00 then
    match secondHalf? rest with
    | some (low, rest) => (Char.ofNat (0x10000 + (n - 0xD800) * 0x400 + low), rest)
    | none => ('\uFFFD', rest)
  else if 0xDC00 ≤ n ∧ n < 0xE000 then ('\uFFFD', rest)
  else (Char.ofNat n, rest)

/-- A scalar in double quotes. -/
def doubleQuoted : (fuel : Nat) → List Char → Except Problem (List Char × List Char)
  | 0, _ => .error .notYaml
  | _, [] => .error .notYaml
  | _ + 1, '"' :: rest => .ok ([], rest)
  | fuel + 1, '\\' :: c :: rest =>
    match escape? c, codeLength? c with
    | some e, _ => (doubleQuoted fuel rest).map fun (cs, r) => (e :: cs, r)
    | none, some k => do
      let (e, rest) := coded (← codeOf k rest) (rest.drop k)
      let (cs, r) ← doubleQuoted fuel rest
      return (e :: cs, r)
    | none, none =>
      if isBreak c then do
        let (bs, rest) ← lineBreaks (rest.length + 1) rest
        let (cs, r) ← doubleQuoted fuel rest
        return (bs ++ cs, r)
      else .error .notYaml
  | fuel + 1, c :: rest =>
    if c = '\\' then .error .notYaml
    else if isBlank c || isBreak c then do
      let (gap, rest) ← spaces (c :: rest)
      let (cs, r) ← doubleQuoted fuel rest
      return (gap ++ cs, r)
    else (doubleQuoted fuel rest).map fun (cs, r) => (c :: cs, r)

end ChainIndexer.Yaml
