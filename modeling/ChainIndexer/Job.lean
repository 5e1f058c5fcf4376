import ChainIndexer.Fault
import ChainIndexer.Text.Letter
import ChainIndexer.Value.Access
import ChainIndexer.Value.Quoted

/-!
Units of work: a log entry as a node gave it, or the signature of a transaction. The numbers of a
log may be integers, decimal or hexadecimal numerals, or missing, which counts as zero.
-/

namespace ChainIndexer

/-- A whole number out of a field of a log. -/
def logNumber (v : Value) : Except Fault Whole :=
  match v with
  | .null => .ok (.number 0)
  | .int n => .ok (.number n)
  | .bool b => .ok (.flag b)
  | .text s =>
    let lower := Text.toLower s
    let base := if Text.startsWith lower "0x" then 16 else 10
    match Numeral.read? base lower with
    | some n => .ok (.number n)
    | none => .error .badValue
  | _ => .error .badValue

/-- A log entry that waits to be decoded. -/
structure LogJob where
  log : Value

namespace LogJob

def blockNumber (j : LogJob) : Except Fault Whole := do
  logNumber (← j.log.get "blockNumber")

def logIndex (j : LogJob) : Except Fault Whole := do
  logNumber (← j.log.get "logIndex")

/-- The hash of the transaction of a log, empty if there is none. -/
def txHash (j : LogJob) : Except Fault String := do
  return ((← j.log.get "transactionHash").orElse (.text "")).shown

end LogJob

/-- A transaction that waits to be read. -/
structure TransactionJob where
  signature : Value
  slot : Value

inductive Job where
  | log (j : LogJob)
  | transaction (j : TransactionJob)

/-- What a unit of work is called in messages. -/
def Job.title : Job → String
  | .log _ => "LogJob"
  | .transaction _ => "TransactionJob"

end ChainIndexer
