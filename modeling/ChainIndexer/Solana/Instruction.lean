import ChainIndexer.Solana.Account

/-!
The instructions of the program. Each event of the protocol has one; its data begin with a
discriminator, which is a digest of its name. If the event carries a record, the account of the
record stands at a fixed place among the accounts of the instruction.
-/

namespace ChainIndexer.Solana

open Push

def instructionName : EventName → String
  | .initialized => "create_network"
  | .setAuthority => "set_authority"
  | .updateStakeConfiguration => "update_stake_configuration"
  | .updateRewardConfiguration => "update_reward_configuration"
  | .createReporter => "create_reporter"
  | .updateReporter => "update_reporter"
  | .activateReporter => "activate_reporter"
  | .deactivateReporter => "deactivate_reporter"
  | .unstake => "unstake_reporter"
  | .createCase => "create_case"
  | .updateCase => "update_case"
  | .createAddress => "create_address"
  | .updateAddress => "update_address"
  | .confirmAddress => "confirm_address"
  | .createAsset => "create_asset"
  | .updateAsset => "update_asset"
  | .confirmAsset => "confirm_asset"

/-- The place of the account of the record among the accounts of an instruction. -/
def recordPlace? : EventName → Option Nat
  | .initialized | .setAuthority | .updateStakeConfiguration | .updateRewardConfiguration => none
  | .createReporter | .updateReporter | .deactivateReporter => some 2
  | .createCase | .updateCase => some 3
  | .createAddress | .updateAddress | .createAsset | .updateAsset => some 4
  | .activateReporter | .unstake | .confirmAddress | .confirmAsset => some 5

/-- The discriminator of the instruction of an event. -/
def instructionMark (e : EventName) : Bytes :=
  discriminator "global" (instructionName e)

def instructionTable : List (Bytes × EventName) :=
  (Vocabulary.members : List EventName).map fun e => (instructionMark e, e)

/-- The event whose instruction has a discriminator. -/
def eventOfMark? (mark : Bytes) : Option EventName :=
  (instructionTable.find? fun e => e.1 == mark).map (·.2)

end ChainIndexer.Solana
