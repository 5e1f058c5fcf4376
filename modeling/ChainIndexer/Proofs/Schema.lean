import ChainIndexer.Proofs.Activity
import ChainIndexer.Schema.Field

/-!
Reading taken apart. A record that was read comes from fields that were all read, each of which is
found behind one `apply` (`Checked.apply_ok`); what stands in a field that was read is either there,
and was read itself, or is the default of the field (`Finds`).
-/

namespace ChainIndexer.Schema

namespace Checked

variable {α β : Type}

/-- What was read by a function and its argument, if both were read. -/
theorem apply_ok {f : Checked (α → β)} {a : Checked α} {b : β} (h : f.apply a = .ok b) :
    ∃ g x, f = .ok g ∧ a = .ok x ∧ b = g x := by
  cases f with
  | error es => cases a <;> cases h
  | ok g =>
    cases a with
    | error es => cases h
    | ok x => exact ⟨g, x, rfl, rfl, (Except.ok.inj h).symm⟩

theorem map_ok {f : α → β} {a : Checked α} {b : β} (h : a.map f = .ok b) :
    ∃ x, a = .ok x ∧ b = f x :=
  ChainIndexer.map_ok h

theorem withErrors_ok {a : Checked α} {more : List FieldError} {x : α}
    (h : a.withErrors more = .ok x) : a = .ok x := by
  cases a with
  | error es => cases h
  | ok y =>
    cases more with
    | nil => exact h
    | cons e es => cases h

theorem under_ok {steps : List String} {a : Checked α} {x : α} (h : a.under steps = .ok x) :
    a = .ok x := by
  cases a with
  | error es => cases h
  | ok y => exact h

theorem orFail_ok {model : String} {a : Checked α} {x : α} (h : a.orFail model = .ok x) :
    a = .ok x := by
  cases a with
  | error es => cases h
  | ok y =>
    cases h
    rfl

end Checked

variable {α β : Type} {read : Reader α} {default a : α} {fields : Fields} {key : String}

/-- What a field that is there was read from. -/
theorem required_ok {v : Value} (hv : Value.field? fields key = some v)
    (h : required read fields key = .ok a) : read v = .ok a := by
  unfold required at h
  rw [hv] at h
  exact Checked.under_ok h

/-- A field that was read was there. -/
theorem exists_of_required (h : required read fields key = .ok a) : ∃ v, read v = .ok a := by
  unfold required at h
  split at h
  · exact ⟨_, Checked.under_ok h⟩
  · cases h

/-- What is read of a value that may be missing: something else stands for it then. -/
def Finds (read : Reader α) (default : α) (v? : Option Value) (a : α) : Prop :=
  match v? with
  | some v => read v = .ok a
  | none => a = default

theorem withDefault_finds (h : withDefault default read fields key = .ok a) :
    Finds read default (Value.field? fields key) a := by
  unfold withDefault at h
  split at h
  · rename_i v hv
    rw [hv]
    exact Checked.under_ok h
  · rename_i hnone
    rw [hnone]
    exact (Except.ok.inj h).symm

theorem record_ok {readFields : Fields → Checked α} {v : Value}
    (h : record readFields v = .ok a) : ∃ fields, v = .object fields ∧ readFields fields = .ok a := by
  unfold record at h
  split at h
  · rename_i fields
    exact ⟨fields, rfl, h⟩
  · cases h

theorem optional_ok {v : Value} {a? : Option α} (h : optional read v = .ok a?) :
    (v = .null ∧ a? = none) ∨ ∃ a, read v = .ok a ∧ a? = some a := by
  unfold optional at h
  split at h
  · exact Or.inl ⟨rfl, (Except.ok.inj h).symm⟩
  · exact Or.inr (map_ok h)

theorem refined_ok {f : α → Checked β} {v : Value} {b : β} (h : refined read f v = .ok b) :
    ∃ a, read v = .ok a ∧ f a = .ok b := by
  unfold refined at h
  split at h
  · rename_i a ha
    exact ⟨a, ha, h⟩
  · cases h

end ChainIndexer.Schema
