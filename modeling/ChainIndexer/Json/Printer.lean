import ChainIndexer.Fault
import ChainIndexer.Number.Numeral
import ChainIndexer.Number.Shortest
import ChainIndexer.Text.Digit
import ChainIndexer.Value
import ChainIndexer.Value.Quoted

/-!
Writing JSON, in ASCII and on one line. A comma and a colon are each followed by a space; a
character outside ASCII is written by its code units. A whole number of more than
`Numeral.maxDigits` digits is refused, and so are bytes; `pieces` gives what is written up to there.
-/

namespace ChainIndexer.Json

def escapeUnit (n : Nat) : List Char :=
  '\\' :: 'u' :: Text.hexDigits 4 n

/-- A character inside a text. -/
def escapeChar (c : Char) : List Char :=
  if c = '"' then ['\\', '"']
  else if c = '\\' then ['\\', '\\']
  else if c = '\n' then ['\\', 'n']
  else if c = '\r' then ['\\', 'r']
  else if c = '\t' then ['\\', 't']
  else if c = '\x08' then ['\\', 'b']
  else if c = '\x0c' then ['\\', 'f']
  else
    let n := c.toNat
    if 0x20 ≤ n ∧ n ≤ 0x7E then [c]
    else if n < 0x10000 then escapeUnit n
    else
      escapeUnit (0xD800 + (n - 0x10000) / 0x400) ++ escapeUnit (0xDC00 + (n - 0x10000) % 0x400)

/-- A text with its quotes. -/
def text (s : String) : String :=
  String.ofList ('"' :: s.toList.flatMap escapeChar ++ ['"'])

/-- Numbers are written as in messages, but for the names of the two that are none. -/
def numberFormat : Shortest.Format :=
  { Value.numberFormat with nan := "NaN", infinity := "Infinity" }

mutual

/-- What is written for a value, piece by piece; the pieces end with the fault, if there is one. -/
def pieces : Value → List (Except Fault String)
  | .null => [.ok "null"]
  | .bool b => [.ok (if b then "true" else "false")]
  | .int n => [if Numeral.isWritable n then .ok (Numeral.decimal n) else .error .badValue]
  | .float x => [.ok (numberFormat.write x)]
  | .text s => [.ok (text s)]
  | .bytes _ => [.error .wrongType]
  | .list items => .ok "[" :: itemPieces true items ++ [.ok "]"]
  | .object fields => .ok "\x7b" :: fieldPieces true fields ++ [.ok "\x7d"]

/-- The pieces of the items of a list, with a comma before all but the first. -/
def itemPieces : Bool → List Value → List (Except Fault String)
  | _, [] => []
  | first, v :: rest =>
    (if first then [] else [.ok ", "]) ++ pieces v ++ itemPieces false rest

/-- The pieces of the fields of an object, with a comma before all but the first. -/
def fieldPieces : Bool → List (String × Value) → List (Except Fault String)
  | _, [] => []
  | first, (key, v) :: rest =>
    (if first then [] else [.ok ", "]) ++ .ok (text key) :: .ok ": " :: pieces v ++
      fieldPieces false rest

end

/-- Pieces put together, as far as there is no fault among them. -/
def together : List (Except Fault String) → Except Fault String
  | [] => .ok ""
  | .ok s :: rest => (together rest).map (s ++ ·)
  | .error e :: _ => .error e

def write (v : Value) : Except Fault String :=
  together (pieces v)

end ChainIndexer.Json
