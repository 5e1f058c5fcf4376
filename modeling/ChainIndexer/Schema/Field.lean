import ChainIndexer.Failure
import ChainIndexer.Schema.Numerals

/-!
Reading a record out of a value of no fixed shape. A reader either gives what it read or the list of
everything that is wrong; `Checked.apply` puts the errors of several fields one after the other, so
a record reports all its fields in the order in which it declares them.
-/

namespace ChainIndexer.Schema

/-- What was read, or what is wrong with it. -/
abbrev Checked (α : Type) := Except (List FieldError) α

namespace Checked

variable {α β : Type}

def map (f : α → β) (a : Checked α) : Checked β :=
  Except.map f a

/-- Applies what was read on the left to what was read on the right and keeps the errors of both. -/
def apply (f : Checked (α → β)) (a : Checked α) : Checked β :=
  match f, a with
  | .ok g, .ok x => .ok (g x)
  | .ok _, .error es => .error es
  | .error es, .ok _ => .error es
  | .error es, .error fs => .error (es ++ fs)

/-- What was read, unless there are further errors. -/
def withErrors (a : Checked α) (more : List FieldError) : Checked α :=
  match a, more with
  | .ok x, [] => .ok x
  | .ok _, es => .error es
  | .error es, more => .error (es ++ more)

/-- The same errors under a longer path. -/
def under (steps : List String) (a : Checked α) : Checked α :=
  a.mapError fun es => es.map fun e => { e with path := steps ++ e.path }

/-- The errors of a record as a failure. -/
def orFail (model : String) (a : Checked α) : Except Failure α :=
  a.mapError (.invalid model)

end Checked

/-- A reader of the value of one field. -/
abbrev Reader (α : Type) := Value → Checked α

/-- A single thing that is wrong with a value as a whole. -/
def problem {α : Type} (p : FieldProblem) : Checked α :=
  .error [⟨[], p⟩]

/-- Reads bytes by what they spell in UTF-8. -/
def spelled {α : Type} (bs : Bytes) (otherwise : FieldProblem) (read : String → Checked α) :
    Checked α :=
  match Text.decode? bs with
  | some s => read s
  | none => problem otherwise

/-- A whole number in a text. -/
def wholeOfText (s : String) : Checked Int :=
  match wholeText s with
  | .number n => .ok n
  | .tooLong => problem .intParsingSize
  | .refused => problem .intParsing

def whole : Reader Int
  | .int n => .ok n
  | .bool b => .ok (if b then 1 else 0)
  | .float x =>
    match Binary64.shape x with
    | .finite negative m e =>
      if Binary64.isWhole m e then
        let n := Binary64.signed negative (Binary64.wholePart m e)
        if -(2 ^ 63) < n ∧ n < 2 ^ 63 then .ok n else problem .intParsingSize
      else problem .intFromFloat
    | _ => problem .finiteNumber
  | .text s => wholeOfText s
  | .bytes bs => spelled bs .intParsing wholeOfText
  | _ => problem .intType

def natural : Reader Nat := fun v =>
  match whole v with
  | .ok n => if n < 0 then problem .atLeast else .ok n.toNat
  | .error es => .error es

def naturalUpTo (bound : Nat) : Reader Nat := fun v =>
  match natural v with
  | .ok n => if bound < n then problem .atMost else .ok n
  | .error es => .error es

/-- A binary64 number in a text. -/
def floatOfText (s : String) : Checked Float :=
  match floatText? s with
  | some x => .ok x
  | none => problem .floatParsing

def float : Reader Float
  | .float x => .ok x
  | .bool b => .ok (if b then 1 else 0)
  | .int n =>
    match Binary64.ofInt? n with
    | some x => .ok x
    | none => problem .floatType
  | .text s => floatOfText s
  | .bytes bs => spelled bs .floatParsing floatOfText
  | _ => problem .floatType

def text : Reader String
  | .text s => .ok s
  | .bytes bs => spelled bs .stringUnicode .ok
  | _ => problem .stringType

/-- A value that may be absent. -/
def optional {α : Type} (read : Reader α) : Reader (Option α)
  | .null => .ok none
  | v => (read v).map some

/-- A value that is checked further, and possibly changed, once it has been read. -/
def refined {α β : Type} (read : Reader α) (f : α → Checked β) : Reader β := fun v =>
  match read v with
  | .ok a => f a
  | .error es => .error es

/-- A word of a vocabulary. -/
def word (α : Type) [Push.Vocabulary α] : Reader α
  | .text s =>
    match Push.Vocabulary.ofWord? s with
    | some a => .ok a
    | none => problem .enumeration
  | _ => problem .enumeration

/-- One fixed text. -/
def literal (s : String) : Reader Unit := fun v =>
  if v.isText s then .ok () else problem .literal

/-- The fields of an object. -/
abbrev Fields := List (String × Value)

/-- A field that must be there. -/
def required {α : Type} (read : Reader α) (fields : Fields) (key : String) : Checked α :=
  match Value.field? fields key with
  | some v => (read v).under [key]
  | none => .error [⟨[key], .missing⟩]

/-- A field with a default. -/
def withDefault {α : Type} (default : α) (read : Reader α) (fields : Fields) (key : String) :
    Checked α :=
  match Value.field? fields key with
  | some v => (read v).under [key]
  | none => .ok default

/-- The errors for the fields that a record does not have, in the order in which they stand. -/
def unknown (known : List String) (fields : Fields) : List FieldError :=
  (fields.filter fun f => !known.contains f.1).map fun f => ⟨[f.1], .unknownField⟩

/-- A record that is given as an object. -/
def record {α : Type} (read : Fields → Checked α) : Reader α
  | .object fields => read fields
  | _ => problem .modelType

end ChainIndexer.Schema
