import ChainIndexer.Failure

/-!
The members of a vocabulary by their codes on the chain, for any value in the place of a code.
-/

namespace ChainIndexer.Push.Vocabulary

variable {α : Type} [Vocabulary α]

/-- The member with a code, or the failure that says there is none. -/
def ofCode (v : Value) : Except Failure α :=
  let member? : Option α := match v with
    | .int n => ofCode? n
    | .bool b => ofCode? (if b then 1 else 0)
    | _ => none
  match member? with
  | some a => .ok a
  | none => .error (.noVariant (title α) v)

/-- The member with the code that a natural number is. -/
def ofCodeNumber (n : Nat) : Except Failure α :=
  ofCode (.int n)

end ChainIndexer.Push.Vocabulary
