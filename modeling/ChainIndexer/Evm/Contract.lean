import ChainIndexer.Bytes.Hex
import ChainIndexer.Failure
import ChainIndexer.Text.Blank
import ChainIndexer.Text.Letter

/-!
Contract addresses as they are configured. Blanks and quotes around an address are dropped, `0x` in
front of it may be missing, and its digits come out in lower case. One line break after the digits
is let through, in the place of the fortieth of them.
-/

namespace ChainIndexer.Evm

/-- Whether a text holds one or more hexadecimal digits, and at most a line break after them. -/
def isHexLine (cs : List Char) : Bool :=
  let digits := cs.takeWhile fun c => (Text.hexDigit? c).isSome
  let rest := cs.dropWhile fun c => (Text.hexDigit? c).isSome
  !digits.isEmpty && (rest.isEmpty || rest == ['\n'])

/-- An address without blanks and without quotes around it. -/
def unquote (cs : List Char) : List Char :=
  Text.trim (· == '\'') (Text.trim (· == '"') (Text.trim Text.isBlank cs))

/-- The address of a contract, in lower case and with `0x`. -/
def contractAddress (v : Value) : Except Failure String :=
  if !v.truthy then .error .contractEmpty
  else
    let digits := Hex.dropMark (unquote v.shown.toList)
    if digits.length ≠ 40 ∨ isHexLine digits = false then .error (.contractInvalid v)
    else .ok (String.ofList ('0' :: 'x' :: digits.map Char.toLower))

end ChainIndexer.Evm
