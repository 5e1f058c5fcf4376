import ChainIndexer.Hash.Sha256
import ChainIndexer.Push.Code
import ChainIndexer.Push.Record
import ChainIndexer.Solana.Borsh

/-!
The records in the accounts of the program. The first eight bytes of an account are the
discriminator of its type, which is a digest of the name of the type; the fields follow in a fixed
order.
-/

namespace ChainIndexer.Solana

open Push

/-- The first eight bytes of the digest of a name in a space of names. -/
def discriminator (space name : String) : Bytes :=
  (Sha256.ofText (space ++ ":" ++ name)).take 8

/-- Reads behind the discriminator of an account of a family. -/
def readAccount {α : Type} (f : Family) (read : Borsh α) (data : Bytes) : Except Failure α :=
  if data.take 8 = discriminator "account" (Data.title f) then read.readFrom data 8
  else .error (.wrongAccountType (Data.title f))

def reporterFields : Borsh Data := do
  let _bump ← Borsh.u8
  let id ← Borsh.u128
  let _network ← Borsh.key
  let account ← Borsh.key
  let name ← Borsh.string
  let role ← Borsh.u8
  let status ← Borsh.u8
  let stake ← Borsh.u64
  let unlock ← Borsh.u64
  let url ← Borsh.string
  let role : ReporterRole ← Vocabulary.ofCodeNumber role
  let status : ReporterStatus ← Vocabulary.ofCodeNumber status
  Data.make .reporter
    [("id", .int id), ("account", .text account), ("role", wordValue role),
      ("status", wordValue status), ("name", .text name), ("url", .text url),
      ("stake", .int stake), ("unlock_timestamp", .int unlock)]

def caseFields : Borsh Data := do
  let _bump ← Borsh.u8
  let id ← Borsh.u128
  let _network ← Borsh.key
  let name ← Borsh.string
  let reporter ← Borsh.u128
  let status ← Borsh.u8
  let url ← Borsh.string
  let status : CaseStatus ← Vocabulary.ofCodeNumber status
  Data.make .case
    [("id", .int id), ("name", .text name), ("url", .text url), ("status", wordValue status),
      ("reporter_id", .int reporter)]

/-- The size of the field for an address or for the identifier of an asset. -/
def textSize : Nat := 64

def addressFields : Borsh Data := do
  let _bump ← Borsh.u8
  let _network ← Borsh.key
  let address ← Borsh.fixedText textSize
  let caseId ← Borsh.u128
  let reporter ← Borsh.u128
  let risk ← Borsh.u8
  let category ← Borsh.u8
  let confirmations ← Borsh.u64
  let category : Category ← Vocabulary.ofCodeNumber category
  Data.make .address
    [("address", .text address), ("case_id", .int caseId), ("reporter_id", .int reporter),
      ("risk", .int risk), ("category", wordValue category), ("confirmations", .int confirmations)]

def assetFields : Borsh Data := do
  let _bump ← Borsh.u8
  let _network ← Borsh.key
  let address ← Borsh.fixedText textSize
  let asset ← Borsh.fixedText textSize
  let caseId ← Borsh.u128
  let reporter ← Borsh.u128
  let risk ← Borsh.u8
  let category ← Borsh.u8
  let confirmations ← Borsh.u64
  let category : Category ← Vocabulary.ofCodeNumber category
  Data.make .asset
    [("address", .text address), ("asset_id", .text asset), ("case_id", .int caseId),
      ("reporter_id", .int reporter), ("risk", .int risk), ("category", wordValue category),
      ("confirmations", .int confirmations)]

/-- The record of a family in the data of an account. -/
def recordOfAccount (f : Family) (data : Bytes) : Except Failure Data :=
  readAccount f (match f with
    | .reporter => reporterFields
    | .case => caseFields
    | .address => addressFields
    | .asset => assetFields) data

end ChainIndexer.Solana
