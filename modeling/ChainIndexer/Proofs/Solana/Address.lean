import ChainIndexer.Proofs.Base58
import ChainIndexer.Proofs.Solana.Decoding

/-!
Keys are compared as text. That is sound because a key has one address, and what is accepted as the
address of a program is, without the blanks around it, the address of a key (`programAddress_ok_iff`).
So two addresses are the same just if their keys are (`AddressOf.eq_iff`), which is what a client
relies on when it looks for its own instructions and accounts (`comparesKeys_ofOptions`).
-/

namespace ChainIndexer.Solana

open Act

/-- A text is the address of a key. -/
def AddressOf (a : String) (key : Bytes) : Prop :=
  key.length = keyLength ∧ Base58.Spells a.toList key

/-- A text is the address of a key with blanks around it or not. -/
def Names (s : String) (key : Bytes) : Prop :=
  ∃ a : String, Text.Trimmed Text.isBlank s.toList a.toList ∧ AddressOf a key

/-- A client takes for its own what belongs to one key, among instructions by the addresses of their
programs and among accounts by the addresses of their owners. -/
structure Client.ComparesKeys (c : Client) (own : Bytes) : Prop where
  program : ∀ {ix place : Value} {keys : List Value} {a : String} {key : Bytes},
    ix.item "programIdIndex" = .ok place → Value.elementOf keys place = .ok (.text a) →
    AddressOf a key → c.isOwn ix keys = .ok (decide (key = own))
  owner : ∀ {sc : Scenario} {w : World} {account a : String} {answer found : Value} {key : Bytes},
    sc.node w.clock "getAccountInfo" (accountParams account) = .ok answer →
    (answer.orElse (.object [])).get "value" = .ok found → found.get "owner" = .ok (.text a) →
    AddressOf a key →
    (Act.exec (c.fetchAccount sc.rpc (.text account)) w).1 =
      if key = own then (accountBytes found).mapError fun _ => .accountNoData (.text account)
      else .error (.accountForeign (.text account) c.program)

/-! ### Addresses -/

theorem addressOf_write {key : Bytes} (h : key.length = keyLength) :
    AddressOf (Base58.write key) key :=
  ⟨h, Base58.spells_iff.mpr rfl⟩

theorem AddressOf.read {a : String} {key : Bytes} (h : AddressOf a key) :
    Base58.read a = .ok key :=
  Base58.read_of_spells h.2

theorem AddressOf.eq_write {a : String} {key : Bytes} (h : AddressOf a key) :
    a = Base58.write key :=
  String.toList_inj.mp (Base58.spells_iff.mp h.2)

/-- Addresses are the same just if their keys are. -/
theorem AddressOf.eq_iff {a a' : String} {key key' : Bytes} (h : AddressOf a key)
    (h' : AddressOf a' key') : a = a' ↔ key = key' := by
  rw [h.eq_write, h'.eq_write]
  exact ⟨Base58.write_injective, congrArg Base58.write⟩

/-- An address has no blanks around it. -/
theorem AddressOf.trimmed {a : String} {key : Bytes} (h : AddressOf a key) :
    Text.Trimmed Text.isBlank a.toList a.toList := by
  have hplain := Text.Trimmed.of_plain [] (fun c hc => (h.2.plain c hc).2) (by simp)
  rwa [List.append_nil] at hplain

theorem programAddress_text (s : String) : programAddress (.text s) =
    match Base58.read (Text.strip s) with
    | .error _ => .error (.programInvalid (.text s))
    | .ok bs =>
      if bs.length ≠ keyLength then .error (.programNotKey (.text s)) else .ok (Text.strip s) := by
  have hshown : ((Value.text s).orElse (.text "")).shown = s := by
    unfold Value.orElse
    cases hs : (Value.text s).truthy with
    | true => rfl
    | false =>
      have hempty : s = "" := by simpa [Value.truthy] using hs
      rw [hempty]
      rfl
  dsimp only [programAddress]
  generalize ((Value.text s).orElse (.text "")).shown = t at hshown ⊢
  obtain rfl := hshown.symm
  cases Base58.read (Text.strip s) with
  | error f => rfl
  | ok bs => rfl

/-- What is read from a text without the blanks around it is the bytes that the rest spells. -/
theorem read_strip_ok_iff {s : String} {bs : Bytes} :
    Base58.read (Text.strip s) = .ok bs ↔ Base58.Spells (Text.strip s).toList bs := by
  have hlast := (Text.trimmed_trim Text.isBlank s.toList).last
  rw [Base58.read_ok_iff, Text.strip, String.toList_ofList, Text.dropTrailing_eq_self hlast]

/-- A text is accepted as the address of a program just if it is the address of a key without the
blanks around it, which is what comes out. -/
theorem programAddress_ok_iff {s a : String} : programAddress (.text s) = .ok a ↔
    Text.Trimmed Text.isBlank s.toList a.toList ∧ ∃ key, AddressOf a key := by
  have hstrip : Text.Trimmed Text.isBlank s.toList a.toList ↔ Text.strip s = a := by
    rw [Text.trimmed_iff, Text.strip, ← String.toList_inj, String.toList_ofList]
  rw [hstrip, programAddress_text]
  constructor
  · intro h
    cases hread : Base58.read (Text.strip s) with
    | error f =>
      rw [hread] at h
      cases h
    | ok bs =>
      rw [hread] at h
      obtain ⟨hlength, rfl⟩ := ite_ok h
      exact ⟨rfl, bs, Decidable.not_not.mp hlength, read_strip_ok_iff.mp hread⟩
  · rintro ⟨rfl, key, hlength, hspells⟩
    rw [read_strip_ok_iff.mpr hspells]
    exact if_neg (not_not_intro hlength)

theorem programAddress_badValue {s : String} {e : Failure}
    (h : programAddress (.text s) = .error e) : e.kind = .badValue := by
  rw [programAddress_text] at h
  split at h
  · cases h
    rfl
  · split at h
    · cases h
      rfl
    · cases h

theorem AddressOf.accepted {a : String} {key : Bytes} (h : AddressOf a key) :
    programAddress (.text a) = .ok a :=
  programAddress_ok_iff.mpr ⟨h.trimmed, key, h⟩

/-! ### Comparisons -/

/-- A client that has been made compares keys. -/
theorem comparesKeys_ofOptions {o : Options} {c : Client} (h : Client.ofOptions o = .ok c) :
    ∃ own, AddressOf c.program own ∧ c.ComparesKeys own := by
  obtain ⟨program, hprogram, hc⟩ := bind_ok h
  cases hc
  obtain ⟨-, own, hown⟩ := programAddress_ok_iff.mp hprogram
  have hsame : ∀ {a : String} {key : Bytes}, AddressOf a key →
      (Value.text a).isText program = decide (key = own) := fun {a key} ha => by
    rw [Value.isText, beq_eq_decide]
    exact decide_eq_decide.mpr (ha.eq_iff hown)
  refine ⟨own, hown, fun {ix place keys a key} hplace helement ha => ?_,
    fun {sc w account a answer found key} hanswer hfound howner ha => ?_⟩
  · rw [Client.isOwn, bind_of_ok hplace, bind_of_ok helement, hsame ha]
    rfl
  · have hnull : found.isNull = false := by
      cases found with
      | null => cases howner
      | _ => rfl
    rw [Client.exec_fetchAccount_of_owner hanswer hfound hnull howner]
    simp [hsame ha]

/-- The text of a key that stands in the data of an account is its address. -/
theorem exec_key {front key rest : Bytes} (h : key.length = keyLength) :
    exec Borsh.key ⟨front ++ key ++ rest, front.length⟩ =
      (.ok (Base58.write key), ⟨front ++ key ++ rest, front.length + keyLength⟩) := by
  refine (Borsh.key_accepts _ _ _ _ (by simp)).mpr ⟨key, ⟨h, rfl⟩, ?_, by rw [h]⟩
  rw [List.append_assoc, List.drop_left]
  exact List.prefix_append _ _

/-- Comparing addresses is comparing keys: a text is accepted just if it is the address of a key with
blanks around it, and refused as a bad value otherwise; two texts that are accepted come out the same
just if they name the same key; what is read out of the data of an account is accepted as it stands
and stands for the bytes that were read; and clients go by keys. -/
theorem addresses_stand_for_keys :
    (∀ s a, programAddress (.text s) = .ok a ↔
      Text.Trimmed Text.isBlank s.toList a.toList ∧ ∃ key, AddressOf a key) ∧
    (∀ s e, programAddress (.text s) = .error e → e.kind = .badValue) ∧
    (∀ s s' key key', Names s key → Names s' key' →
      (programAddress (.text s) = programAddress (.text s') ↔ key = key')) ∧
    (∀ front key rest : Bytes, key.length = keyLength →
      ∃ a, exec Borsh.key ⟨front ++ key ++ rest, front.length⟩ =
          (.ok a, ⟨front ++ key ++ rest, front.length + keyLength⟩) ∧
        AddressOf a key ∧ programAddress (.text a) = .ok a ∧ Base58.read a = .ok key) ∧
    ∀ o c, Client.ofOptions o = .ok c → ∃ own, AddressOf c.program own ∧ c.ComparesKeys own := by
  refine ⟨fun s a => programAddress_ok_iff, fun s e => programAddress_badValue,
    fun s s' key key' h h' => ?_, fun front key rest h => ?_, fun o c => comparesKeys_ofOptions⟩
  · obtain ⟨a, htrimmed, ha⟩ := h
    obtain ⟨a', htrimmed', ha'⟩ := h'
    rw [programAddress_ok_iff.mpr ⟨htrimmed, key, ha⟩,
      programAddress_ok_iff.mpr ⟨htrimmed', key', ha'⟩, Except.ok.injEq]
    exact ha.eq_iff ha'
  · have ha := addressOf_write h
    exact ⟨_, exec_key h, ha, ha.accepted, ha.read⟩

/-- A key whose first bytes are zeros. -/
def smallKey : Bytes :=
  List.replicate 30 0 ++ [1, 57]

def smallAddress : String := "1111111111111111111111111111116Q"

/-- The address of the key with blanks around it. -/
def paddedAddress : String := "\t1111111111111111111111111111116Q\u2003\x1f"

def paddedOptions : Options :=
  { network := .solana, rpcUrl := "https://node", contractAddress := paddedAddress, apiToken := none,
    pageSize := 10, timeout := 30, maxRetries := 3, backoffSeconds := 0.5, backoffCap := 8 }

def smallClient : Client :=
  { network := .solana, program := smallAddress, pageSize := 10 }

theorem smallAddress_of : AddressOf smallAddress smallKey :=
  ⟨rfl, Base58.spells_iff.mpr (by decide +kernel)⟩

theorem paddedAddress_names : Names paddedAddress smallKey :=
  ⟨smallAddress, Text.trimmed_iff.mpr (by decide +kernel), smallAddress_of⟩

theorem smallKey_compared :
    programAddress (.text paddedAddress) = .ok smallAddress ∧
    (∃ e, programAddress (.text "l") = .error e ∧ e.kind = .badValue) ∧
    programAddress (.text paddedAddress) = programAddress (.text smallAddress) ∧
    (∃ a, exec Borsh.key ⟨[0] ++ smallKey ++ [7], 1⟩ = (.ok a, ⟨[0] ++ smallKey ++ [7], 33⟩) ∧
      AddressOf a smallKey ∧ programAddress (.text a) = .ok a ∧ Base58.read a = .ok smallKey) ∧
    ∃ own, AddressOf smallClient.program own ∧ smallClient.ComparesKeys own ∧
      smallClient.isOwn (.object [("programIdIndex", .int 1)]) [.text "", .text smallAddress] =
        .ok (decide (smallKey = own)) := by
  obtain ⟨accepted, refused, same, read, compares⟩ := addresses_stand_for_keys
  have hpadded : programAddress (.text paddedAddress) = .ok smallAddress :=
    (accepted _ _).mpr ⟨Text.trimmed_iff.mpr (by decide +kernel), smallKey, smallAddress_of⟩
  have hclient : Client.ofOptions paddedOptions = .ok smallClient := bind_of_ok hpadded _
  obtain ⟨own, hown, hcompares⟩ := compares paddedOptions smallClient hclient
  refine ⟨hpadded, ⟨_, rfl, refused "l" _ rfl⟩, ?_, read [0] smallKey [7] rfl, own, hown, hcompares,
    hcompares.program rfl rfl smallAddress_of⟩
  exact (same _ _ _ _ paddedAddress_names
    ⟨smallAddress, smallAddress_of.trimmed, smallAddress_of⟩).mpr rfl

end ChainIndexer.Solana
