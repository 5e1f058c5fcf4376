import ChainIndexer.Abi.Ty
import ChainIndexer.Bytes.Hex
import ChainIndexer.Hash.Keccak
import ChainIndexer.Push.Vocabulary

/-!
The events of the contract. The first topic of a log is the digest of the signature of its event, by
which the event is found; the signature is the name of the event with the types of its parameters.
-/

namespace ChainIndexer.Evm

open Push Abi

/-- The types of the parameters of an event, in the order of its declaration. -/
def eventInputs : EventName → List Ty
  | .initialized => [.uint 8]
  | .setAuthority => [.address]
  | .updateStakeConfiguration =>
    [.address, .uint 256, .uint 256, .uint 256, .uint 256, .uint 256]
  | .updateRewardConfiguration => [.address, .uint 256, .uint 256, .uint 256, .uint 256]
  | .createReporter | .updateReporter | .activateReporter | .deactivateReporter | .unstake =>
    [.uint 128, .address, .uint 8]
  | .createCase | .updateCase => [.uint 128]
  | .createAddress | .updateAddress | .confirmAddress => [.address, .uint 8, .uint 8]
  | .createAsset | .updateAsset | .confirmAsset => [.address, .uint 256, .uint 8, .uint 8]

def eventSignature (e : EventName) : String :=
  Vocabulary.word e ++ (Ty.tuple (eventInputs e)).name

/-- The first topic of the logs of an event. -/
def eventTopic (e : EventName) : String :=
  "0x" ++ Hex.write (Keccak.ofText (eventSignature e))

def eventTable : List (String × EventName) :=
  (Vocabulary.members : List EventName).map fun e => (eventTopic e, e)

def eventOfTopic? (topic : String) : Option EventName :=
  (eventTable.find? fun e => e.1 == topic).map (·.2)

end ChainIndexer.Evm
