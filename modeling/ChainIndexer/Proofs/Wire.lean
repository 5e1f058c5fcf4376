import ChainIndexer.Proofs.JsonValue
import ChainIndexer.Proofs.Validity

/-!
The text in which a payload is delivered. If the numbers of a payload are short enough to be
written, the value that stands for it is one that JSON tells from any other (`tellable_toValue`), so
the text of a valid payload is read and validated as the payload again, and two valid payloads with
the same text are the same (`toJson_faithful`). The text is printable ASCII, and the keys of its
objects are in order.
-/

namespace ChainIndexer

/-- A value whose objects, at every level, have their keys in order. -/
inductive Value.KeysInOrder : Value → Prop
  | null : KeysInOrder .null
  | bool (b : Bool) : KeysInOrder (.bool b)
  | int (n : Int) : KeysInOrder (.int n)
  | float (x : Float) : KeysInOrder (.float x)
  | text (s : String) : KeysInOrder (.text s)
  | bytes (bs : Bytes) : KeysInOrder (.bytes bs)
  | list {items : List Value} (hitems : ∀ v ∈ items, KeysInOrder v) : KeysInOrder (.list items)
  | object {fields : List (String × Value)} (hkeys : (fields.map (·.1)).Pairwise (· < ·))
    (hfields : ∀ f ∈ fields, KeysInOrder f.2) : KeysInOrder (.object fields)

namespace Value.KeysInOrder

@[simp] theorem of_text (s : String) : KeysInOrder (.text s) :=
  .text s

@[simp] theorem of_int (n : Int) : KeysInOrder (.int n) :=
  .int n

end Value.KeysInOrder

namespace Push

open Json

/-- The numbers of a record that have no upper bound. -/
def Data.amounts : Data → List Nat
  | .reporter r => [r.stake, r.unlockTimestamp]
  | .case _ => []
  | .address a => [a.confirmations]
  | .asset a => [a.confirmations]

/-- The numbers of a payload that have no upper bound. -/
def Payload.numbers (p : Payload) : List Int :=
  [(p.event.txIndex : Int), (p.event.block : Int)] ++ p.event.timestamp.toList ++
    p.data.amounts.map Int.ofNat

theorem isWritable_id {id : Nat} (h : id ≤ maxId) : Numeral.isWritable id = true :=
  Numeral.isWritable_of_lt (Nat.lt_of_le_of_lt h (by decide))

theorem isWritable_risk {risk : Nat} (h : risk ≤ maxRisk) : Numeral.isWritable risk = true :=
  Numeral.isWritable_of_lt (Nat.lt_of_le_of_lt h (by decide))

theorem Data.tellable_toValue {d : Data} (hvalid : d.Valid)
    (hsize : ∀ n ∈ d.amounts, Numeral.isWritable n = true) (depth : Nat) :
    Tellable (depth + 1) d.toValue := by
  cases d with
  | reporter r =>
    refine .object (by simp) ?_
    have hid := isWritable_id hvalid
    simpa [wordValue, hid, Data.amounts] using hsize
  | case c =>
    refine .object (by simp) ?_
    have hid := isWritable_id hvalid.1
    have hreporter := isWritable_id hvalid.2
    simp [wordValue, hid, hreporter]
  | address a =>
    refine .object (by simp) ?_
    have hcase := isWritable_id hvalid.1
    have hreporter := isWritable_id hvalid.2.1
    have hrisk := isWritable_risk hvalid.2.2
    simpa [wordValue, hcase, hreporter, hrisk, Data.amounts] using hsize
  | asset a =>
    refine .object (by simp) ?_
    have hcase := isWritable_id hvalid.1
    have hreporter := isWritable_id hvalid.2.1
    have hrisk := isWritable_risk hvalid.2.2
    simpa [wordValue, hcase, hreporter, hrisk, Data.amounts] using hsize

theorem Event.tellable_toValue {e : Event} (hindex : Numeral.isWritable e.txIndex = true)
    (hblock : Numeral.isWritable e.block = true)
    (hstamp : ∀ t ∈ e.timestamp, Numeral.isWritable t = true) (depth : Nat) :
    Tellable (depth + 1) e.toValue := by
  obtain ⟨name, tx, index, block, stamp⟩ := e
  refine .object (by simp) ?_
  cases stamp with
  | none => simpa [wordValue] using ⟨hblock, .null, hindex⟩
  | some t => simpa [wordValue] using ⟨hblock, hstamp t rfl, hindex⟩

namespace Payload

variable {p : Payload}

/-- The value of a valid payload with numbers that are short enough is told from any other. -/
theorem tellable_toValue (hvalid : p.Valid)
    (hsize : ∀ n ∈ p.numbers, Numeral.isWritable n = true) (depth : Nat) :
    Tellable (depth + 2) p.toValue := by
  have hevent : Tellable (depth + 1) p.event.toValue := by
    refine Event.tellable_toValue (hsize _ ?_) (hsize _ ?_) (fun t ht => hsize t ?_) depth
    · simp [numbers]
    · simp [numbers]
    · simp [numbers, Option.mem_toList.mpr ht]
  have hdata : Tellable (depth + 1) p.data.toValue := by
    refine Data.tellable_toValue hvalid (fun n hn => hsize n ?_) depth
    exact List.mem_append_right _ (List.mem_map_of_mem hn)
  refine .object (by simp) ?_
  simpa using ⟨hdata, hevent⟩

open Value (KeysInOrder)

theorem keysInOrder_data (d : Data) : KeysInOrder d.toValue := by
  cases d with
  | reporter r => exact .object (by simp only [List.map]; decide) (by simp [wordValue])
  | case c => exact .object (by simp only [List.map]; decide) (by simp [wordValue])
  | address a => exact .object (by simp only [List.map]; decide) (by simp [wordValue])
  | asset a => exact .object (by simp only [List.map]; decide) (by simp [wordValue])

theorem keysInOrder_event (e : Event) : KeysInOrder e.toValue := by
  obtain ⟨name, tx, index, block, stamp⟩ := e
  refine .object (by simp only [List.map]; decide) ?_
  cases stamp with
  | none => simpa [wordValue] using KeysInOrder.null
  | some t => simp [wordValue]

theorem keysInOrder_toValue (p : Payload) : KeysInOrder p.toValue := by
  refine .object (by simp only [List.map]; decide) ?_
  simpa using ⟨keysInOrder_data p.data, keysInOrder_event p.event⟩

/-- The text of a valid payload whose numbers are short enough is read and validated as the payload,
and no other payload has it. It is printable ASCII with the keys of its objects in order. -/
theorem toJson_faithful (hvalid : p.Valid)
    (hsize : ∀ n ∈ p.numbers, Numeral.isWritable n = true) :
    ∃ s v, p.toJson = .ok s ∧ Json.read s = .ok v ∧ Payload.ofValue v = .ok p ∧
      (∀ q : Payload, q.Valid → (∀ n ∈ q.numbers, Numeral.isWritable n = true) →
        (q.toJson = .ok s ↔ q = p)) ∧
      (∀ c ∈ s.toList, Printable c) ∧ Json.write v = .ok s ∧ KeysInOrder v := by
  have htellable : Tellable maxDepth p.toValue := tellable_toValue hvalid hsize _
  obtain ⟨s, hs, hascii⟩ := exists_write htellable
  refine ⟨s, p.toValue, hs, read_write htellable hs, ofValue_toValue hvalid, ?_, hascii, hs,
    keysInOrder_toValue p⟩
  intro q hq hqsize
  constructor
  · intro hqs
    have hsame : q.toValue = p.toValue :=
      write_inj (tellable_toValue hq hqsize _) htellable hqs hs
    have hback := ofValue_toValue hq
    rw [hsame, ofValue_toValue hvalid] at hback
    exact (Except.ok.inj hback).symm
  · rintro rfl
    exact hs

/-- A payload with quotes, control characters and characters beyond the first plane, an event before
the epoch and a stake of 4300 digits. -/
def oddPayload : Payload where
  network := "a\\b\"c\n"
  event := ⟨.createReporter, "😀é\x7f", 3, 21000000, some (-5)⟩
  data := .reporter ⟨maxId, "", .tracer, .active, "\x00\t", "𝄞", 10 ^ (Numeral.maxDigits - 1), 0⟩

theorem toJson_oddPayload :
    oddPayload.Valid ∧ (∀ n ∈ oddPayload.numbers, Numeral.isWritable n = true) ∧
    ∃ s v, oddPayload.toJson = .ok s ∧ Json.read s = .ok v ∧ Payload.ofValue v = .ok oddPayload ∧
      (∀ q : Payload, q.Valid → (∀ n ∈ q.numbers, Numeral.isWritable n = true) →
        (q.toJson = .ok s ↔ q = oddPayload)) ∧
      (∀ c ∈ s.toList, Printable c) ∧ Json.write v = .ok s ∧ KeysInOrder v := by
  have hvalid : oddPayload.Valid := by decide
  have hpow : 10 ^ (Numeral.maxDigits - 1) < 10 ^ Numeral.maxDigits :=
    Nat.pow_lt_pow_right (by decide) (by decide)
  have hstake : Numeral.isWritable ((10 ^ (Numeral.maxDigits - 1) : Nat) : Int) = true :=
    decide_eq_true (by rwa [Int.natAbs_natCast])
  have hsize : ∀ n ∈ oddPayload.numbers, Numeral.isWritable n = true := by
    intro n hn
    simp only [numbers, oddPayload, Data.amounts, List.map_cons, List.map_nil, Option.toList_some,
      List.cons_append, List.nil_append, List.mem_cons, List.not_mem_nil, or_false] at hn
    rcases hn with rfl | rfl | rfl | rfl | rfl
    · exact Numeral.isWritable_of_lt (by decide)
    · exact Numeral.isWritable_of_lt (by decide)
    · exact Numeral.isWritable_of_lt (by decide)
    · exact hstake
    · exact Numeral.isWritable_of_lt (by decide)
  exact ⟨hvalid, hsize, toJson_faithful hvalid hsize⟩

end Payload

end Push

end ChainIndexer
