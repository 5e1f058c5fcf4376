import ChainIndexer.Number.Numeral
import ChainIndexer.Number.Shortest
import ChainIndexer.Text.Quoted
import ChainIndexer.Value

/-!
Values as they stand in messages. A text inside another value is quoted; on its own it stands as it
is.
-/

namespace ChainIndexer.Value

/-- Numbers in messages are written out from `0.0001` up to below `10 ^ 16`; an exponent has a sign
and at least two digits. -/
def numberFormat : Shortest.Format where
  positionalFrom := -4
  exponentFrom := 16
  exponentDigits := 2
  nan := "nan"
  infinity := "inf"

def truthWord (b : Bool) : String :=
  if b then "True" else "False"

/-- Parts with a comma and a space between them. -/
def joined : List String → String
  | [] => ""
  | [p] => p
  | p :: rest => p ++ ", " ++ joined rest

mutual

def quoted : Value → String
  | .null => "None"
  | .bool b => truthWord b
  | .int n => Numeral.decimal n
  | .float x => numberFormat.write x
  | .text s => Text.quoted s
  | .bytes bs => "b" ++ Text.quoted (String.ofList (bs.map fun b => Char.ofNat b.toNat))
  | .list items => "[" ++ joined (quotedItems items) ++ "]"
  | .object fields => "\x7b" ++ joined (quotedFields fields) ++ "\x7d"

def quotedItems : List Value → List String
  | [] => []
  | v :: rest => quoted v :: quotedItems rest

def quotedFields : List (String × Value) → List String
  | [] => []
  | (key, v) :: rest => (Text.quoted key ++ ": " ++ quoted v) :: quotedFields rest

end

/-- A value that a message ends with or is built around: a text stands as it is. -/
def shown : Value → String
  | .text s => s
  | v => quoted v

def shownWhole : Whole → String
  | .number n => Numeral.decimal n
  | .flag b => truthWord b

end ChainIndexer.Value
