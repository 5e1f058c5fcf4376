import ChainIndexer.Push.Vocabulary
import ChainIndexer.Schema.Field

/-!
The records of the protocol: reporters, cases, addresses and assets. A record is read from an object
of exactly its fields and written as an object with its keys in order, together with its kind.
-/

namespace ChainIndexer.Push

open Schema

def maxId : Nat := 2 ^ 128 - 1

def maxRisk : Nat := 10

/-- A member of the network that reports. -/
structure Reporter where
  id : Nat
  account : String
  role : ReporterRole
  status : ReporterStatus
  name : String
  url : String
  stake : Nat
  unlockTimestamp : Nat
  deriving DecidableEq, Repr

/-- A case that a reporter has opened. -/
structure Case where
  id : Nat
  status : CaseStatus
  name : String
  url : String
  reporterId : Nat
  deriving DecidableEq, Repr

/-- An address that a case is about. -/
structure Address where
  address : String
  caseId : Nat
  reporterId : Nat
  risk : Nat
  category : Category
  confirmations : Nat
  deriving DecidableEq, Repr

/-- An asset that a case is about. -/
structure Asset where
  address : String
  assetId : String
  caseId : Nat
  reporterId : Nat
  risk : Nat
  category : Category
  confirmations : Nat
  deriving DecidableEq, Repr

def idNumber : Reader Nat := naturalUpTo maxId

def riskNumber : Reader Nat := naturalUpTo maxRisk

/-- The word of a member of a vocabulary as a value. -/
def wordValue {α : Type} [Vocabulary α] (a : α) : Value :=
  .text (Vocabulary.word a)

namespace Reporter

def keys : List String :=
  ["kind", "id", "account", "role", "status", "name", "url", "stake", "unlock_timestamp"]

def ofFields (fields : Fields) : Checked Reporter :=
  let read := (withDefault () (literal Family.reporter.word) fields "kind").map fun _ => Reporter.mk
  let read := read.apply (required idNumber fields "id")
  let read := read.apply (required text fields "account")
  let read := read.apply (required (word ReporterRole) fields "role")
  let read := read.apply (required (word ReporterStatus) fields "status")
  let read := read.apply (withDefault "" text fields "name")
  let read := read.apply (withDefault "" text fields "url")
  let read := read.apply (withDefault 0 natural fields "stake")
  let read := read.apply (withDefault 0 natural fields "unlock_timestamp")
  read.withErrors (unknown keys fields)

def toValue (r : Reporter) : Value :=
  .object
    [("account", .text r.account), ("id", .int r.id), ("kind", .text Family.reporter.word),
      ("name", .text r.name), ("role", wordValue r.role), ("stake", .int r.stake),
      ("status", wordValue r.status), ("unlock_timestamp", .int r.unlockTimestamp),
      ("url", .text r.url)]

end Reporter

namespace Case

def keys : List String := ["kind", "id", "status", "name", "url", "reporter_id"]

def ofFields (fields : Fields) : Checked Case :=
  let read := (withDefault () (literal Family.case.word) fields "kind").map fun _ => Case.mk
  let read := read.apply (required idNumber fields "id")
  let read := read.apply (required (word CaseStatus) fields "status")
  let read := read.apply (withDefault "" text fields "name")
  let read := read.apply (withDefault "" text fields "url")
  let read := read.apply (required idNumber fields "reporter_id")
  read.withErrors (unknown keys fields)

def toValue (c : Case) : Value :=
  .object
    [("id", .int c.id), ("kind", .text Family.case.word), ("name", .text c.name),
      ("reporter_id", .int c.reporterId), ("status", wordValue c.status), ("url", .text c.url)]

end Case

namespace Address

def keys : List String :=
  ["kind", "address", "case_id", "reporter_id", "risk", "category", "confirmations"]

def ofFields (fields : Fields) : Checked Address :=
  let read := (withDefault () (literal Family.address.word) fields "kind").map fun _ => Address.mk
  let read := read.apply (required text fields "address")
  let read := read.apply (required idNumber fields "case_id")
  let read := read.apply (required idNumber fields "reporter_id")
  let read := read.apply (required riskNumber fields "risk")
  let read := read.apply (required (word Category) fields "category")
  let read := read.apply (withDefault 0 natural fields "confirmations")
  read.withErrors (unknown keys fields)

def toValue (a : Address) : Value :=
  .object
    [("address", .text a.address), ("case_id", .int a.caseId), ("category", wordValue a.category),
      ("confirmations", .int a.confirmations), ("kind", .text Family.address.word),
      ("reporter_id", .int a.reporterId), ("risk", .int a.risk)]

end Address

namespace Asset

def keys : List String :=
  ["kind", "address", "asset_id", "case_id", "reporter_id", "risk", "category", "confirmations"]

def ofFields (fields : Fields) : Checked Asset :=
  let read := (withDefault () (literal Family.asset.word) fields "kind").map fun _ => Asset.mk
  let read := read.apply (required text fields "address")
  let read := read.apply (required text fields "asset_id")
  let read := read.apply (required idNumber fields "case_id")
  let read := read.apply (required idNumber fields "reporter_id")
  let read := read.apply (required riskNumber fields "risk")
  let read := read.apply (required (word Category) fields "category")
  let read := read.apply (withDefault 0 natural fields "confirmations")
  read.withErrors (unknown keys fields)

def toValue (a : Asset) : Value :=
  .object
    [("address", .text a.address), ("asset_id", .text a.assetId), ("case_id", .int a.caseId),
      ("category", wordValue a.category), ("confirmations", .int a.confirmations),
      ("kind", .text Family.asset.word), ("reporter_id", .int a.reporterId),
      ("risk", .int a.risk)]

end Asset

/-- A record of one of the four families. -/
inductive Data where
  | reporter (r : Reporter)
  | case (c : Case)
  | address (a : Address)
  | asset (a : Asset)
  deriving DecidableEq, Repr

namespace Data

def family : Data → Family
  | .reporter _ => .reporter
  | .case _ => .case
  | .address _ => .address
  | .asset _ => .asset

def toValue : Data → Value
  | .reporter r => r.toValue
  | .case c => c.toValue
  | .address a => a.toValue
  | .asset a => a.toValue

def ofFields (f : Family) (fields : Fields) : Checked Data :=
  match f with
  | .reporter => (Reporter.ofFields fields).map .reporter
  | .case => (Case.ofFields fields).map .case
  | .address => (Address.ofFields fields).map .address
  | .asset => (Asset.ofFields fields).map .asset

/-- Reads a record of the family that it names. -/
def ofValue : Reader Data
  | .object fields =>
    match Value.field? fields "kind" with
    | none => problem .tagNotFound
    | some (.text s) =>
      match Family.ofWord? s with
      | some f => (ofFields f fields).under [s]
      | none => problem .tagInvalid
    | some _ => problem .tagInvalid
  | _ => problem .attributesType

/-- What a family of records is called in messages. -/
def title : Family → String
  | .reporter => "Reporter"
  | .case => "Case"
  | .address => "Address"
  | .asset => "Asset"

/-- A record of a family out of its fields, or the failure to validate it. -/
def make (f : Family) (fields : Fields) : Except Failure Data :=
  (ofFields f fields).orFail (title f)

end Data

end ChainIndexer.Push
