import ChainIndexer.Proofs.Record

/-!
What validation says of a payload. It bounds the identifiers and the risk of a record, and nothing
more than the types of the fields do: a payload within these bounds is validated from the value that
stands for it (`Payload.ofValue_toValue`).
-/

namespace ChainIndexer

open Schema

namespace Push

theorem Family.ofWord?_word (f : Family) : Family.ofWord? f.word = some f := by
  cases f <;> decide

/-- A record whose numbers are within their bounds. -/
def Data.Valid : Data → Prop
  | .reporter r => r.id ≤ maxId
  | .case c => c.id ≤ maxId ∧ c.reporterId ≤ maxId
  | .address a => a.caseId ≤ maxId ∧ a.reporterId ≤ maxId ∧ a.risk ≤ maxRisk
  | .asset a => a.caseId ≤ maxId ∧ a.reporterId ≤ maxId ∧ a.risk ≤ maxRisk

instance (d : Data) : Decidable d.Valid := by
  cases d <;> unfold Data.Valid <;> infer_instance

theorem Event.name_of_make {name : EventName} {tx index block timestamp : Value} {e : Event}
    (h : Event.make name tx index block timestamp = .ok e) : e.name = name := by
  obtain ⟨hname, -⟩ := Event.make_parts h
  rw [word_wordValue] at hname
  exact (Except.ok.inj hname).symm

/-! ### What is valid is read -/

theorem idNumber_of_le {id : Nat} (h : id ≤ maxId) : idNumber (.int id) = .ok id := by
  rw [idNumber, naturalUpTo_int, if_neg (Nat.not_lt.mpr h)]

theorem riskNumber_of_le {risk : Nat} (h : risk ≤ maxRisk) : riskNumber (.int risk) = .ok risk := by
  rw [riskNumber, naturalUpTo_int, if_neg (Nat.not_lt.mpr h)]

/-- A valid record is read from the value that stands for it. -/
theorem Data.ofValue_toValue {d : Data} (h : d.Valid) : Data.ofValue d.toValue = .ok d := by
  cases d with
  | reporter r =>
    simp [Data.ofValue, Data.toValue, Reporter.toValue, Value.field?, Family.ofWord?_word,
      Data.ofFields, Reporter.ofFields, required, withDefault, idNumber_of_le h, natural_int,
      word_wordValue]
    rfl
  | case c =>
    simp [Data.ofValue, Data.toValue, Case.toValue, Value.field?, Family.ofWord?_word,
      Data.ofFields, Case.ofFields, required, withDefault, idNumber_of_le h.1, idNumber_of_le h.2,
      word_wordValue]
    rfl
  | address a =>
    simp [Data.ofValue, Data.toValue, Address.toValue, Value.field?, Family.ofWord?_word,
      Data.ofFields, Address.ofFields, required, withDefault, idNumber_of_le h.1,
      idNumber_of_le h.2.1, riskNumber_of_le h.2.2, natural_int, word_wordValue]
    rfl
  | asset a =>
    simp [Data.ofValue, Data.toValue, Asset.toValue, Value.field?, Family.ofWord?_word,
      Data.ofFields, Asset.ofFields, required, withDefault, idNumber_of_le h.1,
      idNumber_of_le h.2.1, riskNumber_of_le h.2.2, natural_int, word_wordValue]
    rfl

theorem Event.ofValue_toValue (e : Event) : record Event.ofFields e.toValue = .ok e := by
  obtain ⟨name, tx, index, block, stamp⟩ := e
  cases stamp with
  | none =>
    simp [record, Event.toValue, Event.ofFields, required, withDefault, Value.field?,
      word_wordValue, natural_int]
    rfl
  | some t =>
    simp [record, Event.toValue, Event.ofFields, required, withDefault, Value.field?,
      word_wordValue, natural_int]
    rfl

namespace Payload

/-- A payload whose record is valid. -/
def Valid (p : Payload) : Prop :=
  p.data.Valid

instance (p : Payload) : Decidable p.Valid :=
  inferInstanceAs (Decidable p.data.Valid)

/-- A valid payload is validated from the value that stands for it. -/
theorem ofValue_toValue {p : Payload} (h : p.Valid) : Payload.ofValue p.toValue = .ok p := by
  have hdata : Data.ofValue p.data.toValue = .ok p.data := Data.ofValue_toValue h
  have hevent := Event.ofValue_toValue p.event
  change (Payload.ofFields [("data", p.data.toValue), ("event", p.event.toValue),
    ("network", .text p.network)]).orFail _ = _
  simp [Payload.ofFields, required, Value.field?, hdata, hevent, text]
  rfl

end Payload

end Push

end ChainIndexer
