/-!
The fixed vocabularies of the protocol. A vocabulary lists its members in the order of their codes
on the chain and gives each its word in a payload. Main statement: a member is found again by its
word, `ofWord?_word`, for each of the five vocabularies.
-/

namespace ChainIndexer.Push

/-- A finite type whose members have words and are numbered from zero. -/
class Vocabulary (α : Type) where
  /-- What the vocabulary is called in messages. -/
  title : String
  /-- The members in the order of their codes. -/
  members : List α
  /-- The word for a member. -/
  word : α → String

namespace Vocabulary

variable {α : Type} [Vocabulary α]

def ofWord? (s : String) : Option α :=
  (members : List α).find? fun a => word a == s

def ofCode? (n : Int) : Option α :=
  if n < 0 then none else (members : List α)[n.toNat]?

def code [BEq α] (a : α) : Nat :=
  (members : List α).idxOf a

end Vocabulary

/-- What a reporter may do. -/
inductive ReporterRole where
  | validator | tracer | publisher | authority
  deriving DecidableEq, Repr

/-- Where a reporter stands. -/
inductive ReporterStatus where
  | inactive | active | unstaking
  deriving DecidableEq, Repr

inductive CaseStatus where
  | closed | opened
  deriving DecidableEq, Repr

/-- What an address or asset is known for. -/
inductive Category where
  | none | walletService | merchantService | miningPool | exchange | defi | otcBroker | atm
  | gambling | illicitOrganization | mixer | darknetService | scam | ransomware | theft
  | counterfeit | terroristFinancing | sanctions | childAbuse | hacker | highRiskJurisdiction
  deriving DecidableEq, Repr

/-- The events of the protocol. -/
inductive EventName where
  | initialized | setAuthority | updateStakeConfiguration | updateRewardConfiguration
  | createReporter | updateReporter | activateReporter | deactivateReporter | unstake
  | createCase | updateCase | createAddress | updateAddress | confirmAddress
  | createAsset | updateAsset | confirmAsset
  deriving DecidableEq, Repr

instance : Vocabulary ReporterRole where
  title := "ReporterRole"
  members := [.validator, .tracer, .publisher, .authority]
  word
    | .validator => "validator"
    | .tracer => "tracer"
    | .publisher => "publisher"
    | .authority => "authority"

instance : Vocabulary ReporterStatus where
  title := "ReporterStatus"
  members := [.inactive, .active, .unstaking]
  word
    | .inactive => "inactive"
    | .active => "active"
    | .unstaking => "unstaking"

instance : Vocabulary CaseStatus where
  title := "CaseStatus"
  members := [.closed, .opened]
  word
    | .closed => "closed"
    | .opened => "open"

instance : Vocabulary Category where
  title := "Category"
  members :=
    [.none, .walletService, .merchantService, .miningPool, .exchange, .defi, .otcBroker, .atm,
      .gambling, .illicitOrganization, .mixer, .darknetService, .scam, .ransomware, .theft,
      .counterfeit, .terroristFinancing, .sanctions, .childAbuse, .hacker, .highRiskJurisdiction]
  word
    | .none => "none"
    | .walletService => "wallet_service"
    | .merchantService => "merchant_service"
    | .miningPool => "mining_pool"
    | .exchange => "exchange"
    | .defi => "defi"
    | .otcBroker => "otc_broker"
    | .atm => "atm"
    | .gambling => "gambling"
    | .illicitOrganization => "illicit_organization"
    | .mixer => "mixer"
    | .darknetService => "darknet_service"
    | .scam => "scam"
    | .ransomware => "ransomware"
    | .theft => "theft"
    | .counterfeit => "counterfeit"
    | .terroristFinancing => "terrorist_financing"
    | .sanctions => "sanctions"
    | .childAbuse => "child_abuse"
    | .hacker => "hacker"
    | .highRiskJurisdiction => "high_risk_jurisdiction"

instance : Vocabulary EventName where
  title := "EventName"
  members :=
    [.initialized, .setAuthority, .updateStakeConfiguration, .updateRewardConfiguration,
      .createReporter, .updateReporter, .activateReporter, .deactivateReporter, .unstake,
      .createCase, .updateCase, .createAddress, .updateAddress, .confirmAddress,
      .createAsset, .updateAsset, .confirmAsset]
  word
    | .initialized => "Initialize"
    | .setAuthority => "SetAuthority"
    | .updateStakeConfiguration => "UpdateStakeConfiguration"
    | .updateRewardConfiguration => "UpdateRewardConfiguration"
    | .createReporter => "CreateReporter"
    | .updateReporter => "UpdateReporter"
    | .activateReporter => "ActivateReporter"
    | .deactivateReporter => "DeactivateReporter"
    | .unstake => "Unstake"
    | .createCase => "CreateCase"
    | .updateCase => "UpdateCase"
    | .createAddress => "CreateAddress"
    | .updateAddress => "UpdateAddress"
    | .confirmAddress => "ConfirmAddress"
    | .createAsset => "CreateAsset"
    | .updateAsset => "UpdateAsset"
    | .confirmAsset => "ConfirmAsset"

open Vocabulary

theorem ReporterRole.ofWord?_word (a : ReporterRole) : ofWord? (word a) = some a := by
  cases a <;> decide

theorem ReporterStatus.ofWord?_word (a : ReporterStatus) : ofWord? (word a) = some a := by
  cases a <;> decide

theorem CaseStatus.ofWord?_word (a : CaseStatus) : ofWord? (word a) = some a := by
  cases a <;> decide

theorem Category.ofWord?_word (a : Category) : ofWord? (word a) = some a := by
  cases a <;> decide

theorem EventName.ofWord?_word (a : EventName) : ofWord? (word a) = some a := by
  cases a <;> decide

inductive Family where
  | reporter | case | address | asset
  deriving DecidableEq, Repr

def Family.word : Family → String
  | .reporter => "reporter"
  | .case => "case"
  | .address => "address"
  | .asset => "asset"

def Family.ofWord? (s : String) : Option Family :=
  [reporter, case, address, asset].find? fun f => f.word == s

/-- The family of the record that an event carries; the events of governance carry none. -/
def EventName.family? : EventName → Option Family
  | .initialized | .setAuthority | .updateStakeConfiguration | .updateRewardConfiguration => none
  | .createReporter | .updateReporter | .activateReporter | .deactivateReporter
  | .unstake => some .reporter
  | .createCase | .updateCase => some .case
  | .createAddress | .updateAddress | .confirmAddress => some .address
  | .createAsset | .updateAsset | .confirmAsset => some .asset

end ChainIndexer.Push
