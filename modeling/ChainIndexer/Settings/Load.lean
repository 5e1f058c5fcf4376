import ChainIndexer.Disk
import ChainIndexer.Settings
import ChainIndexer.Value.Access
import ChainIndexer.Yaml.Document

/-!
Loading the settings: the document of a file, with single entries replaced by variables of the
environment. A part of the document that stands under several names is changed under all of them. A
document that does not validate is a failure of the configuration.
-/

namespace ChainIndexer.Settings

/-- The variables of an environment. -/
abbrev Environment := String → Option String

/-- What holds the document of a settings file, by its name. -/
abbrev Documents (n : Type → Type) := String → Act n Yaml.Document

/-- The documents of files. -/
def documents {n : Type → Type} [Monad n] (disk : Disk n) : Documents n := fun path => do
  let bs ← disk.read path
  match Text.decode? bs with
  | none => throw (.fault .notUtf8)
  | some s => (Yaml.Document.read s).mapError Failure.document

/-- Sets a field of a value, which must be an object. -/
def setField (v : Value) (key : String) (x : Value) : Except Fault Value :=
  match v with
  | .object fields => .ok (.object (Value.setField fields key x))
  | _ => .error .wrongType

/-- Sets a field of a part of a document, which its `twins` are too; the part is made if it is
missing. -/
def setInSection (twins : String → List String) (v : Value) (part key : String) (x : Value) :
    Except Fault Value := do
  let inner ← setField (← v.getD part (.object [])) key x
  (part :: twins part).foldlM (fun v name => setField v name inner) v

/-- Sets the size of a page; a part that counts as nothing is made anew. -/
def setPageSize (v : Value) (x : Value) : Except Fault Value := do
  let inner := (← v.get "indexer").orElse (.object [])
  setField v "indexer" (← setField inner "page_size" x)

/-- What a variable of the environment sets, unless it is missing or empty. -/
def override (env : Environment) (name : String) (set : Value → Value → Except Fault Value)
    (v : Value) : Except Fault Value :=
  match env name with
  | some s => if s.isEmpty then .ok v else set v (.text s)
  | none => .ok v

/-- Whether a variable of the environment is there and not empty. -/
def isSet (env : Environment) (name : String) : Bool :=
  match env name with
  | some s => !s.isEmpty
  | none => false

/-- The twins of a part, without the names to which the environment gives a value of their own. -/
def partTwins (env : Environment) (d : Yaml.Document) (part : String) : List String :=
  (d.twins part).filter fun name =>
    !(name == "contract_address" && isSet env "CONTRACT_ADDRESS") &&
      !(name == "network" && isSet env "INDEXER_NETWORK")

/-- The value of a document with what the environment sets. A document that counts as nothing is an
empty one. -/
def overrideAll (env : Environment) (d : Yaml.Document) : Except Fault Value := do
  let v := d.value.orElse (.object [])
  let twins := partTwins env d
  let v ← override env "RPC_URL_OVERRIDE" (setInSection twins · "rpc" "url") v
  let v ← override env "RPC_API_TOKEN" (setInSection twins · "rpc" "api_token") v
  let v ← override env "CONTRACT_ADDRESS" (setField · "contract_address") v
  let v ← override env "INDEXER_NETWORK" (setField · "network") v
  let v ← override env "PUSH_URL" (setInSection twins · "push" "url") v
  match env "INDEXER_PAGE_SIZE" with
  | some s => setPageSize v (.text s)
  | none => return v

/-- Settings out of the document of a file. -/
def ofDocument (path : String) (env : Environment) (d : Yaml.Document) :
    Except Failure Settings := do
  let v ← overrideAll env d
  (ofValue v).mapError (.configuration path)

def load {n : Type → Type} [Monad n] (docs : Documents n) (env : Environment) (path : String) :
    Act n Settings := do
  let d ← docs path
  ofDocument path env d

end ChainIndexer.Settings
