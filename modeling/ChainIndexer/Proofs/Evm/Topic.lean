import ChainIndexer.Abi.Writer
import ChainIndexer.Evm.Event
import ChainIndexer.Proofs.Hex
import ChainIndexer.Proofs.Record
import Mathlib.Data.List.Nodup

/-!
The topics of a log. The topics of the events differ, in their first bytes already, so the table of
events finds each event by its topic and by nothing else (`eventOfTopic?_iff`). An identifier or an
address is found in the topic that was written for it.
-/

namespace ChainIndexer

/-- A number that fits into fewer bytes has zeros in front. -/
theorem Bytes.toBig_add {n width : Nat} (hn : n < 256 ^ width) (more : Nat) :
    toBig (more + width) n = List.replicate more 0 ++ toBig width n := by
  have hlittle : toLittle (more + width) n = toLittle width n ++ List.replicate more 0 := by
    induction width generalizing n with
    | zero =>
      obtain rfl : n = 0 := by simpa using hn
      induction more with
      | zero => rfl
      | succ more ih =>
        rw [Nat.add_zero] at ih
        simp [toLittle, ih, List.replicate_succ]
    | succ width ih =>
      have hrest : n / 256 < 256 ^ width := by
        rw [Nat.pow_succ] at hn
        omega
      rw [← Nat.add_assoc, toLittle, ih hrest, toLittle, List.cons_append]
  rw [toBig, hlittle, List.reverse_append, List.reverse_replicate, toBig]

namespace Evm

open Push Abi

/-! ### Events -/

/-- The first byte of the digest of the signature of an event. -/
def topicHead (e : EventName) : Bytes :=
  (Keccak.ofText (eventSignature e)).take 1

theorem topicHeads : (Vocabulary.members : List EventName).map topicHead =
    [[0xd2], [0x16], [0x99], [0x25], [0x9f], [0x3d], [0xb7], [0x75], [0xad], [0x4d], [0x69], [0xab],
      [0xb0], [0xdf], [0xc5], [0x33], [0x7d]] := by
  decide +kernel

theorem eventTopic_inj (e e' : EventName) (h : eventTopic e = eventTopic e') : e = e' := by
  have hdigest : Keccak.ofText (eventSignature e) = Keccak.ofText (eventSignature e') := by
    have hwrite := (String.append_right_inj _).mp h
    have hread := congrArg Hex.read? hwrite
    rw [Hex.read?_write, Hex.read?_write] at hread
    exact Option.some.inj hread
  have hdistinct : ((Vocabulary.members : List EventName).map topicHead).Nodup := by
    rw [topicHeads]
    decide
  refine List.inj_on_of_nodup_map hdistinct (LawfulVocabulary.mem_members e)
    (LawfulVocabulary.mem_members e') ?_
  rw [topicHead, hdigest, topicHead]

theorem eventOfTopic?_iff {topic : String} {e : EventName} :
    eventOfTopic? topic = some e ↔ topic = eventTopic e :=
  Vocabulary.find?_table_iff eventTopic_inj

/-! ### Words -/

theorem topicId_write (id : Fin (2 ^ 128)) : topicId (write (.uint 128) id) = .ok id.val := by
  have hlt : id.val < 256 ^ 16 := id.isLt
  have hword : write (.uint 128) id = List.replicate 16 0 ++ Bytes.toBig 16 id.val :=
    Bytes.toBig_add hlt 16
  have hvalue : id.val % 256 ^ 16 = id.val := Nat.mod_eq_of_lt hlt
  simp [topicId, hword, Bytes.ofBig_toBig, hvalue]

theorem topicAddress_write (a : AddressBytes) : topicAddress (write .address a) = .ok a.val := by
  simp [topicAddress, write]

/-- The second topic of a log, of a word. -/
theorem topicAt_one {log : Value} {s s' : String} {bs : Bytes}
    (htopics : log.get "topics" = .ok (.list [.text s, .text s'])) (hs' : Hex.Spells s' bs)
    (hlength : bs.length = 32) : topicAt log 1 = .ok bs := by
  have hall : topics log = .ok (.list [.text s, .text s']) := by
    rw [topics, htopics]
    rfl
  rw [topicAt, hall]
  change (do
    let bs ← hexBytes (.text s')
    if bs.length ≠ 32 then throw (Failure.topicLength 1 bs.length)
    return bs) = .ok bs
  rw [hexBytes_of_spells hs']
  exact if_neg (not_not_intro hlength)

end Evm

end ChainIndexer
