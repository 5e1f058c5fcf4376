import ChainIndexer.Proofs.DedupeKey
import ChainIndexer.Push.Code

/-!
The records and events that the clients make, from fields that are all there. The members of a
vocabulary are numbered one to one by their codes (`ofCodeNumber_iff`), so a code says which member
a record gets. Numbers that fit and texts are taken as they are: a reporter and a case are always
made (`make_reporter`, `make_case`), an address and an asset just if their risk is in range
(`make_address`, `make_asset`), and an event if its numbers are natural (`make_event`).
-/

namespace ChainIndexer

open Push Schema

/-! ### Vocabularies -/

/-- A vocabulary that lists each member once, not too many for a byte, and gives no word twice. -/
class LawfulVocabulary (α : Type) [Vocabulary α] : Prop where
  mem_members : ∀ a : α, a ∈ Vocabulary.members
  nodup_members : (Vocabulary.members : List α).Nodup
  length_members : (Vocabulary.members : List α).length ≤ 256
  ofWord?_word : ∀ a : α, Vocabulary.ofWord? (Vocabulary.word a) = some a

instance : LawfulVocabulary ReporterRole where
  mem_members a := by cases a <;> decide
  nodup_members := by decide
  length_members := by decide
  ofWord?_word := ReporterRole.ofWord?_word

instance : LawfulVocabulary ReporterStatus where
  mem_members a := by cases a <;> decide
  nodup_members := by decide
  length_members := by decide
  ofWord?_word := ReporterStatus.ofWord?_word

instance : LawfulVocabulary CaseStatus where
  mem_members a := by cases a <;> decide
  nodup_members := by decide
  length_members := by decide
  ofWord?_word := CaseStatus.ofWord?_word

instance : LawfulVocabulary Category where
  mem_members a := by cases a <;> decide
  nodup_members := by decide
  length_members := by decide
  ofWord?_word := Category.ofWord?_word

instance : LawfulVocabulary EventName where
  mem_members a := by cases a <;> decide
  nodup_members := by decide
  length_members := by decide
  ofWord?_word := EventName.ofWord?_word

namespace Push.Vocabulary

variable {α : Type} [Vocabulary α] [LawfulVocabulary α]

/-- A number is the code of a member just if it finds the member. -/
theorem ofCodeNumber_iff [BEq α] [LawfulBEq α] {n : Nat} {a : α} :
    ofCodeNumber n = .ok a ↔ n = code a := by
  have hfind : ofCode? (n : Int) = some a ↔ n = code a := by
    have hnonneg : ¬(n : Int) < 0 := by omega
    simp only [ofCode?, hnonneg, if_false, Int.toNat_natCast]
    constructor
    · intro h
      obtain ⟨hn, rfl⟩ := List.getElem?_eq_some_iff.mp h
      exact (LawfulVocabulary.nodup_members.idxOf_getElem n hn).symm
    · rintro rfl
      have hlt := List.idxOf_lt_length_of_mem (LawfulVocabulary.mem_members a)
      rw [code, List.getElem?_eq_getElem hlt, List.getElem_idxOf]
  rw [← hfind]
  unfold ofCodeNumber ofCode
  dsimp only
  cases (ofCode? (n : Int) : Option α) with
  | none => simp
  | some b => simp

theorem code_lt [BEq α] [LawfulBEq α] (a : α) : code a < 256 :=
  Nat.lt_of_lt_of_le (List.idxOf_lt_length_of_mem (LawfulVocabulary.mem_members a))
    LawfulVocabulary.length_members

/-- In a table of the members by different keys, a key finds a member just if it is its key. -/
theorem find?_table_iff {κ : Type} [BEq κ] [LawfulBEq κ] {key : α → κ}
    (hkey : ∀ a b, key a = key b → a = b) {k : κ} {a : α} :
    (((members : List α).map fun a => (key a, a)).find? fun e => e.1 == k).map (·.2) = some a ↔
      k = key a := by
  rw [List.find?_map, Option.map_map, Option.map_eq_some_iff]
  constructor
  · rintro ⟨b, hfind, rfl⟩
    have hb := List.find?_some hfind
    exact (eq_of_beq hb).symm
  · rintro rfl
    have hself : ((fun e : κ × α => e.1 == key a) ∘ fun a => (key a, a)) a = true :=
      beq_self_eq_true (key a)
    have hsome := List.find?_isSome.mpr ⟨a, LawfulVocabulary.mem_members a, hself⟩
    obtain ⟨b, hfind⟩ := Option.isSome_iff_exists.mp hsome
    have hb := List.find?_some hfind
    exact ⟨b, hfind, hkey b a (eq_of_beq hb)⟩

end Push.Vocabulary

/-! ### Fields -/

namespace Schema

theorem natural_int (n : Nat) : natural (.int n) = .ok n := by
  have hnonneg : ¬(n : Int) < 0 := by omega
  simp [natural, whole, hnonneg]

theorem naturalUpTo_int (bound n : Nat) :
    naturalUpTo bound (.int n) = if bound < n then problem .atMost else .ok n := by
  rw [naturalUpTo, natural_int]

theorem word_wordValue {α : Type} [Vocabulary α] [LawfulVocabulary α] (a : α) :
    word α (wordValue a) = .ok a := by
  simp only [word, wordValue, LawfulVocabulary.ofWord?_word]

end Schema

/-! ### Records and events -/

namespace Push

theorem idNumber_int {id : Nat} (h : id < 2 ^ 128) : idNumber (.int id) = .ok id := by
  have hle : id ≤ maxId := Nat.le_of_lt_succ h
  rw [idNumber, naturalUpTo_int, if_neg (Nat.not_lt.mpr hle)]

theorem make_reporter {id : Nat} (hid : id < 2 ^ 128) (account : String) (role : ReporterRole)
    (status : ReporterStatus) (name url : String) (stake unlock : Nat) :
    Data.make .reporter
      [("id", .int id), ("account", .text account), ("role", wordValue role),
        ("status", wordValue status), ("name", .text name), ("url", .text url),
        ("stake", .int stake), ("unlock_timestamp", .int unlock)] =
      .ok (.reporter ⟨id, account, role, status, name, url, stake, unlock⟩) := by
  simp [Data.make, Data.ofFields, Reporter.ofFields, required, withDefault, Value.field?,
    idNumber_int hid, natural_int, word_wordValue]
  rfl

theorem make_case {id reporter : Nat} (hid : id < 2 ^ 128) (hreporter : reporter < 2 ^ 128)
    (status : CaseStatus) (name url : String) :
    Data.make .case
      [("id", .int id), ("name", .text name), ("url", .text url), ("status", wordValue status),
        ("reporter_id", .int reporter)] =
      .ok (.case ⟨id, status, name, url, reporter⟩) := by
  simp [Data.make, Data.ofFields, Case.ofFields, required, withDefault, Value.field?,
    idNumber_int hid, idNumber_int hreporter, word_wordValue]
  rfl

/-- The errors of a record whose risk is too high. -/
def riskTooHigh : List FieldError :=
  [⟨["risk"], .atMost⟩]

theorem make_address {caseId reporter : Nat} (hcase : caseId < 2 ^ 128)
    (hreporter : reporter < 2 ^ 128) (address : String) (risk : Nat) (category : Category)
    (confirmations : Nat) :
    Data.make .address
      [("address", .text address), ("case_id", .int caseId), ("reporter_id", .int reporter),
        ("risk", .int risk), ("category", wordValue category),
        ("confirmations", .int confirmations)] =
      if maxRisk < risk then .error (.invalid "Address" riskTooHigh)
      else .ok (.address ⟨address, caseId, reporter, risk, category, confirmations⟩) := by
  simp [Data.make, Data.ofFields, Address.ofFields, required, withDefault, Value.field?,
    idNumber_int hcase, idNumber_int hreporter, riskNumber, naturalUpTo_int, natural_int,
    word_wordValue]
  split
  · rfl
  · rfl

theorem make_asset {caseId reporter : Nat} (hcase : caseId < 2 ^ 128)
    (hreporter : reporter < 2 ^ 128) (address asset : String) (risk : Nat) (category : Category)
    (confirmations : Nat) :
    Data.make .asset
      [("address", .text address), ("asset_id", .text asset), ("case_id", .int caseId),
        ("reporter_id", .int reporter), ("risk", .int risk), ("category", wordValue category),
        ("confirmations", .int confirmations)] =
      if maxRisk < risk then .error (.invalid "Asset" riskTooHigh)
      else .ok (.asset ⟨address, asset, caseId, reporter, risk, category, confirmations⟩) := by
  simp [Data.make, Data.ofFields, Asset.ofFields, required, withDefault, Value.field?,
    idNumber_int hcase, idNumber_int hreporter, riskNumber, naturalUpTo_int, natural_int,
    word_wordValue]
  split
  · rfl
  · rfl

theorem natural_ofWhole_eq {w : Whole} (h : 0 ≤ w.toInt) :
    natural (.ofWhole w) = .ok w.toInt.toNat := by
  have hnonneg : ¬w.toInt < 0 := by omega
  simp only [natural, whole_ofWhole, hnonneg, if_false]

/-- The value of a timestamp, `null` if there is none. -/
def stampValue : Option Int → Value
  | some t => .int t
  | none => .null

theorem make_event {index block : Whole} (hindex : 0 ≤ index.toInt) (hblock : 0 ≤ block.toInt)
    (name : EventName) (tx : String) (stamp : Option Int) :
    Event.make name (.text tx) (.ofWhole index) (.ofWhole block) (stampValue stamp) =
      .ok ⟨name, tx, index.toInt.toNat, block.toInt.toNat, stamp⟩ := by
  cases stamp with
  | none =>
    simp [Event.make, Event.ofFields, required, withDefault, Value.field?, word_wordValue,
      natural_ofWhole_eq hindex, natural_ofWhole_eq hblock, stampValue]
    rfl
  | some t =>
    simp [Event.make, Event.ofFields, required, withDefault, Value.field?, word_wordValue,
      natural_ofWhole_eq hindex, natural_ofWhole_eq hblock, stampValue]
    rfl

end Push

end ChainIndexer
