import ChainIndexer.Bytes.Endian
import ChainIndexer.Bytes.Hex
import ChainIndexer.Failure
import ChainIndexer.Value.Access

/-!
The bytes of a log. Its fields are hexadecimal texts; its topics are words of 32 bytes, of which an
identifier fills the last 16 and an address the last 20, with zeros before them.
-/

namespace ChainIndexer.Evm

/-- The bytes of a hexadecimal text, with `0x` before it or not. What counts as nothing has none. -/
def hexBytes (v : Value) : Except Failure Bytes :=
  match v.orElse (.text "0x") with
  | .text s =>
    match Hex.read? (String.ofList (Hex.dropMark s.toList)) with
    | some bs => .ok bs
    | none => .error (.notHex v)
  | _ => .error (.fault .wrongType)

def topics (log : Value) : Except Fault Value := do
  return (← log.get "topics").orElse (.list [])

def topicAt (log : Value) (i : Nat) : Except Failure Bytes := do
  let all ← topics log
  let count ← all.size
  if count ≤ i then throw (.tooFewTopics count i)
  let bs ← hexBytes (← all.index i)
  if bs.length ≠ 32 then throw (.topicLength i bs.length)
  return bs

/-- The identifier that a topic holds. -/
def topicId (topic : Bytes) : Except Failure Nat :=
  if (topic.take 16).any (· != 0) then .error .idTooWide
  else .ok (Bytes.ofBig (topic.drop 16))

def topicAddress (topic : Bytes) : Except Failure Bytes :=
  if (topic.take 12).any (· != 0) then .error .addressPadded
  else .ok (topic.drop 12)

end ChainIndexer.Evm
