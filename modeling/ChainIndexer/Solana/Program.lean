import ChainIndexer.Bytes.Base58
import ChainIndexer.Failure

/-!
Program addresses: the base-58 text of 32 bytes, with blanks around it or not.
-/

namespace ChainIndexer.Solana

def keyLength : Nat := 32

/-- The address of a program, without the blanks around it. -/
def programAddress (v : Value) : Except Failure String :=
  let address := Text.strip (v.orElse (.text "")).shown
  match Base58.read address with
  | .error _ => .error (.programInvalid v)
  | .ok bytes =>
    if bytes.length ≠ keyLength then .error (.programNotKey v) else .ok address

end ChainIndexer.Solana
