import ChainIndexer.Number.Amount
import ChainIndexer.Text.Utf8

/-!
Values of no fixed shape: what a node answers, what a settings file or a checkpoint file holds.
Objects keep the order of their fields, and the last of several fields of one name wins. Bytes stand
in settings files only.
-/

namespace ChainIndexer

/-- A value of no fixed shape. -/
inductive Value where
  | null
  | bool (b : Bool)
  | int (n : Int)
  | float (x : Float)
  | text (s : String)
  | bytes (bs : Bytes)
  | list (items : List Value)
  | object (fields : List (String × Value))
  deriving Inhabited

namespace Value

instance : Coe String Value := ⟨.text⟩
instance : Coe Int Value := ⟨.int⟩

def ofWhole : Whole → Value
  | .number n => .int n
  | .flag b => .bool b

def ofAmount : Amount → Value
  | .whole w => ofWhole w
  | .real x => .float x

/-- The text, or nothing for `null`. -/
def ofText? : Option String → Value
  | some s => .text s
  | none => .null

def isText (v : Value) (s : String) : Bool :=
  match v with
  | .text t => t == s
  | _ => false

/-- Whether a value is a number equal to the given integer. -/
def isInt (v : Value) (n : Int) : Bool :=
  match v with
  | .int m => m == n
  | .bool b => (if b then 1 else 0) == n
  | .float x => Binary64.eqInt x n
  | _ => false

/-- Whether a value is absent. -/
def isNull : Value → Bool
  | .null => true
  | _ => false

/-- Whether a value counts as something: not absent, not false, not zero and not empty. -/
def truthy : Value → Bool
  | .null => false
  | .bool b => b
  | .int n => n != 0
  | .float x => !(x == 0)
  | .text s => !s.isEmpty
  | .bytes bs => !bs.isEmpty
  | .list items => !items.isEmpty
  | .object fields => !fields.isEmpty

/-- The value, or another one in the place of what counts as nothing. -/
def orElse (v other : Value) : Value :=
  if v.truthy then v else other

/-- The field of a name among fields of different names. -/
def field? (fields : List (String × Value)) (key : String) : Option Value :=
  (fields.find? fun f => f.1 == key).map (·.2)

/-- Fields with one of them set: in its old place if it is there, at the end otherwise. -/
def setField (fields : List (String × Value)) (key : String) (v : Value) :
    List (String × Value) :=
  match fields with
  | [] => [(key, v)]
  | f :: rest => if f.1 = key then (key, v) :: rest else f :: setField rest key v

/-- An object from fields of which the last of one name wins. -/
def objectOf (fields : List (String × Value)) : Value :=
  .object (fields.foldl (fun acc f => setField acc f.1 f.2) [])

end Value

end ChainIndexer
