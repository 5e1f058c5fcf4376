import ChainIndexer.Proofs.Record
import ChainIndexer.Proofs.Refusal
import ChainIndexer.Proofs.Solana.Format
import ChainIndexer.Solana.Account

/-!
The accounts of the program and their records. `Contents f` is what the program can write into an
account of a family, with the ranges that the protocol gives to the fields; its bytes are a
discriminator and the fields one after the other. A reader of records reads the fields of a layout
and makes a record of them (`recordOfAccount_eq`), so what it accepts follows from the layout and
from what a record is made of: the bytes of the accounts of its family and whatever follows them,
and nothing else (`recordOfAccount_exact`).
-/

namespace ChainIndexer.Solana

open Act Push

/-! ### Records out of what was read -/

def reporterOf (id : Nat) (account name : String) (role status stake unlock : Nat) (url : String) :
    Except Failure Data := do
  let role : ReporterRole ← Vocabulary.ofCodeNumber role
  let status : ReporterStatus ← Vocabulary.ofCodeNumber status
  Data.make .reporter
    [("id", .int id), ("account", .text account), ("role", wordValue role),
      ("status", wordValue status), ("name", .text name), ("url", .text url),
      ("stake", .int stake), ("unlock_timestamp", .int unlock)]

def caseOf (id : Nat) (name : String) (reporter status : Nat) (url : String) :
    Except Failure Data := do
  let status : CaseStatus ← Vocabulary.ofCodeNumber status
  Data.make .case
    [("id", .int id), ("name", .text name), ("url", .text url), ("status", wordValue status),
      ("reporter_id", .int reporter)]

def addressOf (address : String) (caseId reporter risk category confirmations : Nat) :
    Except Failure Data := do
  let category : Category ← Vocabulary.ofCodeNumber category
  Data.make .address
    [("address", .text address), ("case_id", .int caseId), ("reporter_id", .int reporter),
      ("risk", .int risk), ("category", wordValue category), ("confirmations", .int confirmations)]

def assetOf (address asset : String) (caseId reporter risk category confirmations : Nat) :
    Except Failure Data := do
  let category : Category ← Vocabulary.ofCodeNumber category
  Data.make .asset
    [("address", .text address), ("asset_id", .text asset), ("case_id", .int caseId),
      ("reporter_id", .int reporter), ("risk", .int risk), ("category", wordValue category),
      ("confirmations", .int confirmations)]

def layoutOf : Family → Layout
  | .reporter =>
    [.number 1, .number 16, .key, .key, .text, .number 1, .number 1, .number 8, .number 8, .text]
  | .case => [.number 1, .number 16, .key, .text, .number 16, .number 1, .text]
  | .address =>
    [.number 1, .key, .fixedText textSize, .number 16, .number 16, .number 1, .number 1, .number 8]
  | .asset =>
    [.number 1, .key, .fixedText textSize, .fixedText textSize, .number 16, .number 16, .number 1,
      .number 1, .number 8]

def recordOfReadings : (f : Family) → (layoutOf f).Readings → Except Failure Data
  | .reporter, (_, id, _, account, name, role, status, stake, unlock, url, _) =>
    reporterOf id account name role status stake unlock url
  | .case, (_, id, _, name, reporter, status, url, _) => caseOf id name reporter status url
  | .address, (_, _, address, caseId, reporter, risk, category, confirmations, _) =>
    addressOf address caseId reporter risk category confirmations
  | .asset, (_, _, address, asset, caseId, reporter, risk, category, confirmations, _) =>
    assetOf address asset caseId reporter risk category confirmations

/-- The reader of a family: it reads the fields and makes a record of them. -/
def fieldsOf (f : Family) : Borsh Data := do
  recordOfReadings f (← (layoutOf f).read)

theorem reporterFields_eq : reporterFields = fieldsOf .reporter := by
  simp only [reporterFields, fieldsOf, layoutOf, Layout.read, Field.read, bind_assoc, pure_bind,
    recordOfReadings, reporterOf, lift_bind]
  rfl

theorem caseFields_eq : caseFields = fieldsOf .case := by
  simp only [caseFields, fieldsOf, layoutOf, Layout.read, Field.read, bind_assoc, pure_bind,
    recordOfReadings, caseOf, lift_bind]
  rfl

theorem addressFields_eq : addressFields = fieldsOf .address := by
  simp only [addressFields, fieldsOf, layoutOf, Layout.read, Field.read, bind_assoc, pure_bind,
    recordOfReadings, addressOf, lift_bind]
  rfl

theorem assetFields_eq : assetFields = fieldsOf .asset := by
  simp only [assetFields, fieldsOf, layoutOf, Layout.read, Field.read, bind_assoc, pure_bind,
    recordOfReadings, assetOf, lift_bind]
  rfl

theorem recordOfAccount_eq (f : Family) (data : Bytes) :
    recordOfAccount f data = readAccount f (fieldsOf f) data := by
  cases f with
  | reporter => rw [← reporterFields_eq]; rfl
  | case => rw [← caseFields_eq]; rfl
  | address => rw [← addressFields_eq]; rfl
  | asset => rw [← assetFields_eq]; rfl

/-! ### Accounts -/

structure ReporterAccount where
  bump : Fin (256 ^ 1)
  id : Fin (256 ^ 16)
  network : Key
  account : Key
  name : ShortText
  role : ReporterRole
  status : ReporterStatus
  stake : Fin (256 ^ 8)
  unlock : Fin (256 ^ 8)
  url : ShortText

structure CaseAccount where
  bump : Fin (256 ^ 1)
  id : Fin (256 ^ 16)
  network : Key
  name : ShortText
  reporter : Fin (256 ^ 16)
  status : CaseStatus
  url : ShortText

structure AddressAccount where
  bump : Fin (256 ^ 1)
  network : Key
  address : FieldText textSize
  caseId : Fin (256 ^ 16)
  reporter : Fin (256 ^ 16)
  risk : Fin (maxRisk + 1)
  category : Category
  confirmations : Fin (256 ^ 8)

structure AssetAccount where
  bump : Fin (256 ^ 1)
  network : Key
  address : FieldText textSize
  asset : FieldText textSize
  caseId : Fin (256 ^ 16)
  reporter : Fin (256 ^ 16)
  risk : Fin (maxRisk + 1)
  category : Category
  confirmations : Fin (256 ^ 8)

/-- What an account of a family holds. -/
@[reducible]
def Contents : Family → Type
  | .reporter => ReporterAccount
  | .case => CaseAccount
  | .address => AddressAccount
  | .asset => AssetAccount

/-- The byte for a member of a vocabulary. -/
def codeField {α : Type} [Vocabulary α] [LawfulVocabulary α] [BEq α] [LawfulBEq α] (a : α) :
    Fin (256 ^ 1) :=
  ⟨Vocabulary.code a, Vocabulary.code_lt a⟩

namespace Contents

variable {f : Family}

/-- The values of the fields, in their order. -/
def vals : {f : Family} → Contents f → (layoutOf f).Vals
  | .reporter, a =>
    (a.bump, a.id, a.network, a.account, a.name, codeField a.role, codeField a.status, a.stake,
      a.unlock, a.url, ())
  | .case, a => (a.bump, a.id, a.network, a.name, a.reporter, codeField a.status, a.url, ())
  | .address, a =>
    (a.bump, a.network, a.address, a.caseId, a.reporter, a.risk.castLE (by decide),
      codeField a.category, a.confirmations, ())
  | .asset, a =>
    (a.bump, a.network, a.address, a.asset, a.caseId, a.reporter, a.risk.castLE (by decide),
      codeField a.category, a.confirmations, ())

/-- The data of the account behind the discriminator. -/
def fields (a : Contents f) : Bytes :=
  (layoutOf f).write a.vals

/-- The data of the account. -/
def bytes (a : Contents f) : Bytes :=
  discriminator "account" (Data.title f) ++ a.fields

/-- The record that the account holds. -/
def record : {f : Family} → Contents f → Data
  | .reporter, a =>
    .reporter ⟨a.id, Base58.write a.account, a.role, a.status, a.name, a.url, a.stake, a.unlock⟩
  | .case, a => .case ⟨a.id, a.status, a.name, a.url, a.reporter⟩
  | .address, a => .address ⟨a.address, a.caseId, a.reporter, a.risk, a.category, a.confirmations⟩
  | .asset, a =>
    .asset ⟨a.address, a.asset, a.caseId, a.reporter, a.risk, a.category, a.confirmations⟩

theorem recordOfReadings_vals (a : Contents f) :
    recordOfReadings f ((layoutOf f).readings a.vals) = .ok a.record := by
  cases f with
  | reporter =>
    have hrole := Vocabulary.ofCodeNumber_iff.mpr (rfl : (codeField a.role).val = _)
    have hstatus := Vocabulary.ofCodeNumber_iff.mpr (rfl : (codeField a.status).val = _)
    refine (bind_of_ok hrole _).trans ((bind_of_ok hstatus _).trans ?_)
    exact make_reporter a.id.isLt _ _ _ _ _ _ _
  | case =>
    have hstatus := Vocabulary.ofCodeNumber_iff.mpr (rfl : (codeField a.status).val = _)
    exact (bind_of_ok hstatus _).trans (make_case a.id.isLt a.reporter.isLt _ _ _)
  | address =>
    have hrisk : ¬maxRisk < a.risk.val := Nat.not_lt.mpr (Nat.le_of_lt_succ a.risk.isLt)
    have hcategory := Vocabulary.ofCodeNumber_iff.mpr (rfl : (codeField a.category).val = _)
    refine (bind_of_ok hcategory _).trans ?_
    exact (make_address a.caseId.isLt a.reporter.isLt _ _ _ _).trans (if_neg hrisk)
  | asset =>
    have hrisk : ¬maxRisk < a.risk.val := Nat.not_lt.mpr (Nat.le_of_lt_succ a.risk.isLt)
    have hcategory := Vocabulary.ofCodeNumber_iff.mpr (rfl : (codeField a.category).val = _)
    refine (bind_of_ok hcategory _).trans ?_
    exact (make_asset a.caseId.isLt a.reporter.isLt _ _ _ _ _).trans (if_neg hrisk)

/-- What is read makes a record just if it is what some account holds. -/
theorem exists_vals_of_record {vs : (layoutOf f).Vals} {r : Data}
    (h : recordOfReadings f ((layoutOf f).readings vs) = .ok r) :
    ∃ a : Contents f, a.vals = vs ∧ a.record = r := by
  -- the record is then determined, so only the values have to be found
  suffices hvals : ∃ a : Contents f, a.vals = vs by
    obtain ⟨a, rfl⟩ := hvals
    exact ⟨a, rfl, Except.ok.inj (a.recordOfReadings_vals.symm.trans h)⟩
  cases f with
  | reporter =>
    obtain ⟨bump, id, network, account, name, role, status, stake, unlock, url, ⟨⟩⟩ := vs
    obtain ⟨role', hrole, h⟩ := bind_ok h
    obtain ⟨status', hstatus, -⟩ := bind_ok h
    obtain rfl : role = codeField role' := Fin.ext (Vocabulary.ofCodeNumber_iff.mp hrole)
    obtain rfl : status = codeField status' := Fin.ext (Vocabulary.ofCodeNumber_iff.mp hstatus)
    exact ⟨⟨bump, id, network, account, name, role', status', stake, unlock, url⟩, rfl⟩
  | case =>
    obtain ⟨bump, id, network, name, reporter, status, url, ⟨⟩⟩ := vs
    obtain ⟨status', hstatus, -⟩ := bind_ok h
    obtain rfl : status = codeField status' := Fin.ext (Vocabulary.ofCodeNumber_iff.mp hstatus)
    exact ⟨⟨bump, id, network, name, reporter, status', url⟩, rfl⟩
  | address =>
    obtain ⟨bump, network, address, caseId, reporter, risk, category, confirmations, ⟨⟩⟩ := vs
    obtain ⟨category', hcategory, hmake⟩ := bind_ok h
    obtain rfl : category = codeField category' :=
      Fin.ext (Vocabulary.ofCodeNumber_iff.mp hcategory)
    have hrisk : ¬maxRisk < risk.val := fun hhigh => by
      have hchecked := (make_address caseId.isLt reporter.isLt _ _ _ _).symm.trans hmake
      cases (if_pos hhigh).symm.trans hchecked
    exact ⟨⟨bump, network, address, caseId, reporter, ⟨risk, by omega⟩, category', confirmations⟩,
      rfl⟩
  | asset =>
    obtain ⟨bump, network, address, asset, caseId, reporter, risk, category, confirmations, ⟨⟩⟩ :=
      vs
    obtain ⟨category', hcategory, hmake⟩ := bind_ok h
    obtain rfl : category = codeField category' :=
      Fin.ext (Vocabulary.ofCodeNumber_iff.mp hcategory)
    have hrisk : ¬maxRisk < risk.val := fun hhigh => by
      have hchecked := (make_asset caseId.isLt reporter.isLt _ _ _ _ _).symm.trans hmake
      cases (if_pos hhigh).symm.trans hchecked
    exact ⟨⟨bump, network, address, asset, caseId, reporter, ⟨risk, by omega⟩, category',
      confirmations⟩, rfl⟩

end Contents

/-- The reader of a family accepts the fields of the accounts of the family, and gives their
records. -/
theorem fieldsOf_accepts (f : Family) :
    Accepts (fieldsOf f) fun r bs => ∃ a : Contents f, bs = a.fields ∧ r = a.record := by
  refine ((layoutOf f).read_accepts.bind fun rs => Accepts.lift (recordOfReadings f rs)).congr
    fun r bs => ?_
  constructor
  · rintro ⟨_, _, _, ⟨vs, rfl, rfl⟩, ⟨hrecord, rfl⟩, rfl⟩
    obtain ⟨a, rfl, rfl⟩ := Contents.exists_vals_of_record hrecord
    exact ⟨a, List.append_nil _, rfl⟩
  · rintro ⟨a, rfl, rfl⟩
    exact ⟨_, _, [], ⟨a.vals, rfl, rfl⟩, ⟨a.recordOfReadings_vals, rfl⟩, (List.append_nil _).symm⟩

theorem accountMark_eq (f : Family) : discriminator "account" (Data.title f) = match f with
    | .reporter => [233, 37, 148, 250, 155, 158, 118, 161]
    | .case => [24, 222, 147, 26, 60, 162, 154, 176]
    | .address => [33, 141, 133, 70, 148, 151, 68, 172]
    | .asset => [234, 180, 241, 252, 139, 224, 160, 8] := by
  cases f <;> decide +kernel

theorem length_accountMark (f : Family) : (discriminator "account" (Data.title f)).length = 8 := by
  rw [accountMark_eq]
  cases f <;> rfl

theorem accountMark_inj {f g : Family}
    (h : discriminator "account" (Data.title f) = discriminator "account" (Data.title g)) :
    f = g := by
  rw [accountMark_eq, accountMark_eq] at h
  revert h
  cases f <;> cases g <;> decide

/-- What is read behind the discriminator of a family follows it in the data. -/
theorem readAccount_ok_iff {α : Type} {f : Family} {read : Borsh α} {P : α → Bytes → Prop}
    (h : Accepts read P) {data : Bytes} {a : α} : readAccount f read data = .ok a ↔
      ∃ bs, P a bs ∧ discriminator "account" (Data.title f) ++ bs <+: data := by
  have hmark := length_accountMark f
  rw [readAccount]
  constructor
  · intro hread
    split at hread
    · rename_i hhead
      have hlength : 8 ≤ data.length := by
        have := congrArg List.length hhead
        rw [List.length_take] at this
        omega
      have hexec : exec read ⟨data, 8⟩ = (.ok a, (exec read ⟨data, 8⟩).2) := Prod.ext hread rfl
      obtain ⟨bs, hbs, ⟨rest, hrest⟩, -⟩ := (h data 8 a _ hlength).mp hexec
      refine ⟨bs, hbs, rest, ?_⟩
      rw [← hhead, List.append_assoc, hrest, List.take_append_drop]
    · cases hread
  · rintro ⟨bs, hbs, rest, rfl⟩
    rw [List.append_assoc, List.take_left' hmark, if_pos rfl]
    have hbegins : bs <+: (discriminator "account" (Data.title f) ++ (bs ++ rest)).drop 8 := by
      rw [List.drop_left' hmark]
      exact List.prefix_append _ _
    have hexec := (h _ 8 a _ (by rw [List.length_append]; omega)).mpr ⟨bs, hbs, hbegins, rfl⟩
    exact congrArg Prod.fst hexec

/-- The data of an account hold a record of a family just if they begin with those of an account of
the family that has this record. -/
theorem recordOfAccount_ok_iff {f : Family} {data : Bytes} {r : Data} :
    recordOfAccount f data = .ok r ↔ ∃ a : Contents f, a.bytes <+: data ∧ r = a.record := by
  rw [recordOfAccount_eq, readAccount_ok_iff (fieldsOf_accepts f)]
  constructor
  · rintro ⟨_, ⟨a, rfl, rfl⟩, hbegins⟩
    exact ⟨a, hbegins, rfl⟩
  · rintro ⟨a, hbegins, rfl⟩
    exact ⟨a.fields, ⟨a, rfl, rfl⟩, hbegins⟩

/-! ### Refusals -/

/-- A failure of no guard that says of bytes that they hold no record, or of a value in them that it
is out of range. -/
def Unreadable (e : Failure) : Prop :=
  e.Plain ∧ (e.kind = .decode ∨ e.kind.isBadValue = true)

theorem Unreadable.of_decode {e : Failure} (he : e.Plain) (h : e.kind = .decode) : Unreadable e :=
  ⟨he, Or.inl h⟩

theorem ofCodeNumber_unreadable {α : Type} [Vocabulary α] (n : Nat) :
    RefusedAs Unreadable (Vocabulary.ofCodeNumber n : Except Failure α) := by
  intro e h
  exact ⟨Vocabulary.ofCodeNumber_plain n e h, Or.inr (Vocabulary.ofCodeNumber_badValue n e h)⟩

theorem make_unreadable (f : Family) (fields : Schema.Fields) :
    RefusedAs Unreadable (Data.make f fields) := by
  intro e h
  exact ⟨Schema.Checked.orFail_plain _ _ e h, Or.inr (Schema.Checked.orFail_badValue _ _ e h)⟩

theorem recordOfReadings_unreadable (f : Family) (rs : (layoutOf f).Readings) :
    RefusedAs Unreadable (recordOfReadings f rs) := by
  cases f with
  | reporter =>
    refine .bind (ofCodeNumber_unreadable _) fun role _ => ?_
    exact .bind (ofCodeNumber_unreadable _) fun status _ => make_unreadable _ _
  | case => exact .bind (ofCodeNumber_unreadable _) fun _ _ => make_unreadable _ _
  | address => exact .bind (ofCodeNumber_unreadable _) fun _ _ => make_unreadable _ _
  | asset => exact .bind (ofCodeNumber_unreadable _) fun _ _ => make_unreadable _ _

theorem take_unreadable (count : Nat) : FailsAs Unreadable (Borsh.take count) := by
  refine FailsAs.bind (FailsAs.sure _) fun s => FailsAs.check_of (.of_decode rfl rfl) ?_
  exact FailsAs.bind (FailsAs.sure _) fun _ => FailsAs.pure _

theorem field_unreadable (f : Field) : FailsAs Unreadable f.read := by
  cases f with
  | number width => exact FailsAs.bind (take_unreadable width) fun _ => FailsAs.pure _
  | key => exact FailsAs.bind (take_unreadable 32) fun _ => FailsAs.pure _
  | text =>
    refine FailsAs.bind (FailsAs.bind (take_unreadable 4) fun _ => FailsAs.pure _) fun length => ?_
    refine FailsAs.bind (take_unreadable length) fun bs => ?_
    split
    · exact FailsAs.pure _
    · exact FailsAs.bind (FailsAs.sure _) fun s => FailsAs.throw_of (.of_decode rfl rfl)
  | fixedText size =>
    refine FailsAs.bind (take_unreadable size) fun bs => ?_
    split
    · exact FailsAs.pure _
    · exact FailsAs.throw_of (.of_decode rfl rfl)

theorem layout_unreadable (fs : Layout) : FailsAs Unreadable fs.read := by
  induction fs with
  | nil => exact FailsAs.pure _
  | cons f fs ih =>
    exact FailsAs.bind (field_unreadable f) fun r => FailsAs.bind ih fun rs => FailsAs.pure _

/-- Data that hold no record of a family are refused as such. -/
theorem recordOfAccount_unreadable (f : Family) (data : Bytes) :
    RefusedAs Unreadable (recordOfAccount f data) := by
  intro e h
  have hfields : FailsAs Unreadable (fieldsOf f) :=
    FailsAs.bind (layout_unreadable _) fun rs => FailsAs.lift_of (recordOfReadings_unreadable f rs)
  rw [recordOfAccount_eq, readAccount] at h
  split at h
  · exact hfields ⟨data, 8⟩ e (exec (fieldsOf f) ⟨data, 8⟩).2 (Prod.ext h rfl)
  · cases h
    exact .of_decode rfl rfl

theorem recordOfAccount_plain (f : Family) (data : Bytes) : Plain (recordOfAccount f data) :=
  fun e h => (recordOfAccount_unreadable f data e h).1

/-- Some data are refused, as no data of an account of a family or for a value out of range. -/
def Refuses (f : Family) (data : Bytes) : Prop :=
  ∃ e, recordOfAccount f data = .error e ∧ (e.kind = .decode ∨ e.kind.isBadValue = true)

theorem refuses_of_no_account {f : Family} {data : Bytes}
    (h : ∀ a : Contents f, ¬a.bytes <+: data) : Refuses f data := by
  cases hrecord : recordOfAccount f data with
  | error e => exact ⟨e, hrecord, (recordOfAccount_unreadable f data e hrecord).2⟩
  | ok r =>
    obtain ⟨a, hbegins, -⟩ := recordOfAccount_ok_iff.mp hrecord
    exact absurd hbegins (h a)

/-- No account of a family begins with another one. -/
theorem Contents.prefix_free {f : Family} {a b : Contents f} (h : a.bytes <+: b.bytes) :
    a.bytes = b.bytes := by
  have hfields : a.fields <+: b.fields := (List.prefix_append_right_inj _).mp h
  rw [bytes, bytes, (fieldsOf_accepts f).prefix_free ⟨a, rfl, rfl⟩ ⟨b, rfl, rfl⟩ hfields]

/-- The decoder of a family accepts its format and nothing else: the data of an account of the
family, whatever follows them, and it gives the record of the account. All other data are refused,
among them what is left of an account that was cut off, and the accounts of other families. -/
theorem recordOfAccount_exact (f : Family) :
    (∀ data r, recordOfAccount f data = .ok r ↔
      ∃ (a : Contents f) (rest : Bytes), data = a.bytes ++ rest ∧ r = a.record) ∧
    (∀ data, (∀ (a : Contents f) (rest : Bytes), data ≠ a.bytes ++ rest) → Refuses f data) ∧
    (∀ (a : Contents f) (n : Nat), n < a.bytes.length → Refuses f (a.bytes.take n)) ∧
    ∀ (g : Family) (b : Contents g) (rest : Bytes), g ≠ f → Refuses f (b.bytes ++ rest) := by
  refine ⟨fun data r => ?_, fun data hother => ?_, fun a n hn => ?_, fun g b rest hne => ?_⟩
  · rw [recordOfAccount_ok_iff]
    constructor
    · rintro ⟨a, ⟨rest, rfl⟩, rfl⟩
      exact ⟨a, rest, rfl, rfl⟩
    · rintro ⟨a, rest, rfl, rfl⟩
      exact ⟨a, ⟨rest, rfl⟩, rfl⟩
  · refine refuses_of_no_account fun a ⟨rest, hrest⟩ => ?_
    exact hother a rest hrest.symm
  · refine refuses_of_no_account fun b hbegins => ?_
    have hsame := Contents.prefix_free (hbegins.trans (List.take_prefix n _))
    have hlength := hbegins.length_le
    rw [hsame, List.length_take] at hlength
    omega
  · refine refuses_of_no_account fun a ⟨more, hmore⟩ => hne (accountMark_inj ?_)
    have hhead := congrArg (List.take 8) hmore
    rw [Contents.bytes, Contents.bytes, List.append_assoc, List.append_assoc,
      List.take_left' (length_accountMark f), List.take_left' (length_accountMark g)] at hhead
    exact hhead.symm

def sampleCase : Contents .case where
  bump := 255
  id := 5
  network := ⟨List.replicate 32 7, rfl⟩
  name := ⟨"né", by decide⟩
  reporter := 9
  status := .opened
  url := ⟨"", by decide⟩

def sampleAddress : Contents .address where
  bump := 255
  network := ⟨List.replicate 32 7, rfl⟩
  address := ⟨"a", by decide⟩
  caseId := 5
  reporter := 9
  risk := 10
  category := .mixer
  confirmations := 0

theorem sampleCase_exact :
    recordOfAccount .case (sampleCase.bytes ++ [1, 2]) = .ok (.case ⟨5, .opened, "né", "", 9⟩) ∧
    Refuses .case [24, 222] ∧ Refuses .case (sampleCase.bytes.take 30) ∧
    Refuses .case (sampleAddress.bytes ++ [1, 2]) := by
  obtain ⟨haccepts, hother, hcut, hforeign⟩ := recordOfAccount_exact .case
  have hlong : 30 < sampleCase.bytes.length := by decide +kernel
  refine ⟨(haccepts _ _).mpr ⟨sampleCase, _, rfl, rfl⟩, hother _ fun a rest h => ?_,
    hcut sampleCase 30 hlong, hforeign .address sampleAddress _ (by decide)⟩
  have hlength := congrArg List.length h
  have hmark := length_accountMark .case
  rw [Contents.bytes, List.length_append, List.length_append, hmark] at hlength
  change 2 = _ at hlength
  omega

end ChainIndexer.Solana
