import ChainIndexer.Network
import ChainIndexer.Proofs.Numeral
import ChainIndexer.Proofs.Schema
import ChainIndexer.Push.Payload

/-!
The key by which a receiver tells payloads apart. On one network it determines the transaction and
the position in it (`keyOf_inj`), whatever characters the hash of the transaction has, because the
position is written in digits behind the last colon. No network has a colon in its name, so the name
stands before the first one, and payloads of different networks have different keys
(`dedupeKey_eq_iff`). An event that was validated has the hash and the position that were given for
it (`make_ok`), so the key of a payload is known before its record is.
-/

namespace ChainIndexer

namespace Push

theorem whole_ofWhole (w : Whole) : Schema.whole (.ofWhole w) = .ok w.toInt := by
  cases w with
  | number k => rfl
  | flag b => cases b <;> rfl

/-- The whole number that a field for a natural number was read from. -/
theorem natural_ofWhole {w : Whole} {n : Nat} (h : Schema.natural (.ofWhole w) = .ok n) :
    w.toInt = n := by
  unfold Schema.natural at h
  rw [whole_ofWhole] at h
  dsimp only at h
  split at h
  · cases h
  · have hn := Except.ok.inj h
    omega

/-- The parts of a validated event are what the fields that were given for them hold. -/
theorem Event.make_parts {name : EventName} {tx index block timestamp : Value} {e : Event}
    (h : Event.make name tx index block timestamp = .ok e) :
    Schema.word EventName (wordValue name) = .ok e.name ∧ Schema.text tx = .ok e.txHash ∧
      Schema.natural index = .ok e.txIndex ∧ Schema.natural block = .ok e.block := by
  have hread := Schema.Checked.withErrors_ok (Schema.Checked.orFail_ok h)
  obtain ⟨ofStamp, stamp, hblock, -, he⟩ := Schema.Checked.apply_ok hread
  obtain ⟨ofBlock, number, hindex, hnumber, rfl⟩ := Schema.Checked.apply_ok hblock
  obtain ⟨ofIndex, position, hhash, hposition, rfl⟩ := Schema.Checked.apply_ok hindex
  obtain ⟨ofHash, hash, hname, htext, rfl⟩ := Schema.Checked.apply_ok hhash
  obtain ⟨word, hword, rfl⟩ := Schema.Checked.map_ok hname
  subst he
  exact ⟨Schema.required_ok rfl hword, Schema.required_ok rfl htext,
    Schema.required_ok rfl hposition, Schema.required_ok rfl hnumber⟩

/-- A validated event has the hash and the position that were given for it. -/
theorem Event.make_ok {name : EventName} {tx : String} {index : Whole} {block timestamp : Value}
    {e : Event} (h : Event.make name (.text tx) (.ofWhole index) block timestamp = .ok e) :
    e.txHash = tx ∧ index.toInt = e.txIndex := by
  obtain ⟨-, htext, hposition, -⟩ := Event.make_parts h
  exact ⟨(Except.ok.inj htext).symm, natural_ofWhole hposition⟩

namespace Payload

/-- The key of an event at a position of a transaction. -/
def keyOf (network tx : String) (index : Nat) : String :=
  network ++ ":" ++ tx ++ ":" ++ Numeral.natural index

theorem dedupeKey_eq (p : Payload) :
    p.dedupeKey = keyOf p.network p.event.txHash p.event.txIndex := rfl

/-- What stands before the last colon and what stands behind it. -/
private theorem append_colon_inj {cs cs' ds ds' : List Char} (hds : ':' ∉ ds) (hds' : ':' ∉ ds')
    (h : cs ++ ':' :: ds = cs' ++ ':' :: ds') : cs = cs' ∧ ds = ds' := by
  rcases List.append_eq_append_iff.mp h with ⟨more, rfl, hmore⟩ | ⟨more, rfl, hmore⟩
  · cases more with
    | nil => exact ⟨(List.append_nil _).symm, (List.cons.inj hmore).2⟩
    | cons c rest =>
      refine absurd ?_ hds
      rw [(List.cons.inj hmore).2]
      simp
  · cases more with
    | nil => exact ⟨List.append_nil _, (List.cons.inj hmore).2.symm⟩
    | cons c rest =>
      refine absurd ?_ hds'
      rw [(List.cons.inj hmore).2]
      simp

theorem colon_notMem_toDigits (n : Nat) : ':' ∉ Nat.toDigits 10 n := by
  intro h
  exact absurd (Nat.isDigit_of_mem_toDigits (by decide) (by decide) h) (by decide)

/-- On one network a key belongs to one position of one transaction. -/
theorem keyOf_inj {network tx tx' : String} {i i' : Nat}
    (h : keyOf network tx i = keyOf network tx' i') : tx = tx' ∧ i = i' := by
  have hchars : tx.toList ++ ':' :: Nat.toDigits 10 i = tx'.toList ++ ':' :: Nat.toDigits 10 i' := by
    have htoList := congrArg String.toList h
    simpa [keyOf, Numeral.natural] using htoList
  obtain ⟨htx, hdigits⟩ :=
    append_colon_inj (colon_notMem_toDigits i) (colon_notMem_toDigits i') hchars
  refine ⟨String.toList_inj.mp htx, ?_⟩
  rw [← Numeral.decimal_ofDigits i, hdigits, Numeral.decimal_ofDigits]

/-- What stands before the first colon. -/
private theorem prefix_colon_inj {cs cs' ds ds' : List Char} (hcs : ':' ∉ cs) (hcs' : ':' ∉ cs')
    (h : cs ++ ':' :: ds = cs' ++ ':' :: ds') : cs = cs' := by
  have hreverse := congrArg List.reverse h
  simp only [List.reverse_append, List.reverse_cons, List.append_assoc, List.singleton_append]
    at hreverse
  have hsame := append_colon_inj (by simpa using hcs) (by simpa using hcs') hreverse
  exact List.reverse_inj.mp hsame.2

theorem colon_notMem_word (n : Network) : ':' ∉ n.word.toList := by
  cases n <;> decide

/-- Payloads of networks have the same key just if they are of the same network, transaction and
position. -/
theorem dedupeKey_eq_iff {p q : Payload} {n m : Network} (hp : p.network = n.word)
    (hq : q.network = m.word) :
    p.dedupeKey = q.dedupeKey ↔ p.network = q.network ∧ p.event.txHash = q.event.txHash ∧
      p.event.txIndex = q.event.txIndex := by
  rw [dedupeKey_eq, dedupeKey_eq]
  constructor
  · intro h
    have hnetwork : p.network = q.network := by
      have hchars := congrArg String.toList h
      simp only [keyOf, String.toList_append, List.append_assoc,
        show ":".toList = [':'] from rfl, List.singleton_append, hp, hq] at hchars
      rw [hp, hq]
      exact String.toList_inj.mp
        (prefix_colon_inj (colon_notMem_word n) (colon_notMem_word m) hchars)
    rw [hnetwork] at h
    exact ⟨hnetwork, keyOf_inj h⟩
  · rintro ⟨hnetwork, htx, hindex⟩
    rw [hnetwork, htx, hindex]

/-- Payloads whose keys are put together from the same characters up to one colon. -/
def colonPayload (tx : String) (index : Nat) : Payload where
  network := "near"
  event := ⟨.createCase, tx, index, 7, none⟩
  data := .case ⟨5, .opened, "", "", 2⟩

theorem colonPayload_keys :
    (colonPayload "0x:1" 2).network = Network.near.word ∧
    (colonPayload "0x" 12).network = Network.near.word ∧
    (colonPayload "0x:1" 2).dedupeKey ≠ (colonPayload "0x" 12).dedupeKey ∧
    (colonPayload "0x:1" 2).dedupeKey = (colonPayload "0x:1" 2).dedupeKey := by
  refine ⟨rfl, rfl, fun h => ?_, ?_⟩
  · have hsame := (dedupeKey_eq_iff (n := .near) (m := .near) rfl rfl).mp h
    exact absurd hsame.2.2 (by decide)
  · exact (dedupeKey_eq_iff (n := .near) (m := .near) rfl rfl).mpr ⟨rfl, rfl, rfl⟩

end Payload

end Push

end ChainIndexer
