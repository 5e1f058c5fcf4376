import ChainIndexer.Json.Printer
import ChainIndexer.Push.Record

/-!
What is delivered: a record together with the event that it stems from and the network. The text of
a payload has its keys in order at every level; its key names the event, so that a receiver can drop
what it has seen before.
-/

namespace ChainIndexer.Push

open Schema

/-- Where and when an event of the protocol happened. -/
structure Event where
  name : EventName
  txHash : String
  txIndex : Nat
  block : Nat
  timestamp : Option Int
  deriving DecidableEq, Repr

namespace Event

def keys : List String := ["name", "tx_hash", "tx_index", "block", "timestamp"]

def ofFields (fields : Fields) : Checked Event :=
  let read := (required (word EventName) fields "name").map Event.mk
  let read := read.apply (required text fields "tx_hash")
  let read := read.apply (required natural fields "tx_index")
  let read := read.apply (required natural fields "block")
  let read := read.apply (withDefault none (optional whole) fields "timestamp")
  read.withErrors (unknown keys fields)

/-- An event out of its parts, or the failure to validate it. -/
def make (name : EventName) (txHash txIndex block timestamp : Value) : Except Failure Event :=
  (ofFields
    [("name", wordValue name), ("tx_hash", txHash), ("tx_index", txIndex), ("block", block),
      ("timestamp", timestamp)]).orFail "PushEvent"

def toValue (e : Event) : Value :=
  .object
    [("block", .int e.block), ("name", wordValue e.name),
      ("timestamp", match e.timestamp with
        | some t => .int t
        | none => .null),
      ("tx_hash", .text e.txHash), ("tx_index", .int e.txIndex)]

end Event

/-- What is delivered for an event. -/
structure Payload where
  network : String
  event : Event
  data : Data
  deriving DecidableEq, Repr

namespace Payload

def keys : List String := ["network", "event", "data"]

def ofFields (fields : Fields) : Checked Payload :=
  let read := (required text fields "network").map Payload.mk
  let read := read.apply (required (record Event.ofFields) fields "event")
  let read := read.apply (required Data.ofValue fields "data")
  read.withErrors (unknown keys fields)

/-- A payload out of a value, or the failure to validate it. -/
def ofValue (v : Value) : Except Failure Payload :=
  (record ofFields v).orFail "PushPayload"

def toValue (p : Payload) : Value :=
  .object [("data", p.data.toValue), ("event", p.event.toValue), ("network", .text p.network)]

def toJson (p : Payload) : Except Fault String :=
  Json.write p.toValue

/-- The key of a payload: the network, the transaction and the position in it. -/
def dedupeKey (p : Payload) : String :=
  p.network ++ ":" ++ p.event.txHash ++ ":" ++ Numeral.natural p.event.txIndex

end Payload

end ChainIndexer.Push
