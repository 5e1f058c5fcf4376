import ChainIndexer.Yaml.Node
import ChainIndexer.Yaml.Scalar
import ChainIndexer.Yaml.Token.Lexer

/-!
The value of a document. The nodes of a graph are built one after the other: scalars at once,
collections level by level, so that of two nodes that have no value the one nearer to the root is
found first. Mappings can be merged into others, whose own entries count more. Keys that are no
texts are dropped, since nothing asks for them; a collection is no key at all.
-/

namespace ChainIndexer.Yaml

/-- A node that has been built: a value, or a collection of other nodes by their numbers. -/
inductive Built where
  | leaf (v : Value)
  | list (items : List Nat)
  | pairs (entries : List (Nat × Nat))
  | object (fields : List (String × Nat))

/-- The state of building: the nodes, those that have been built, the collections whose parts are
still to be built, last first, and a bound for the depth of merging. -/
structure Builder where
  nodes : Array Node
  built : Array (Option Built)
  waiting : List Nat := []
  depth : Nat

/-- A step of building. -/
abbrev Build (α : Type) := StateT Builder (Except Problem) α

namespace Build

/-- There is no value for the document. -/
def refuse {α : Type} : Build α := throw .notYaml

def node (id : Nat) : Build Node := do
  match (← get).nodes[id]? with
  | some n => return n
  | none => refuse

def built? (id : Nat) : Build (Option Built) := do
  return (← get).built[id]?.join

/-- Says what a node has been built to. -/
def put (id : Nat) (b : Built) : Build Unit :=
  modify fun s => { s with built := s.built.setIfInBounds id (some b) }

def entriesOf (id : Nat) : Build (List (Nat × Nat)) := do
  match (← node id).content with
  | .mapping entries => return entries
  | _ => refuse

def setEntries (id : Nat) (entries : List (Nat × Nat)) : Build Unit :=
  modify fun s =>
    { s with nodes := s.nodes.modify id fun n => { n with content := .mapping entries } }

def hasTag (tag : Tag) (id : Nat) : Build Bool := do
  return (← node id).tag == tag

/-- The text of a scalar, or of the value that stands for a mapping. `fuel` bounds the depth, which
only a mapping that stands for itself exceeds. -/
def textOf : (fuel : Nat) → (id : Nat) → Build String
  | 0, _ => throw .tooDeep
  | fuel + 1, id => do
    match (← node id).content with
    | .scalar s => return s
    | .mapping entries =>
      match ← entries.findM? fun e => hasTag .value e.1 with
      | some (_, v) => textOf fuel v
      | none => refuse
    | .sequence _ => refuse

/-- A node as a single value. A date is read from the scalar itself. -/
def leaf (id : Nat) : Build Value := do
  let s ← textOf (← get).nodes.size id
  let n ← node id
  match n.tag, n.content with
  | .timestamp, .mapping _ => throw .noStamp
  | tag, _ => scalarValue tag s

/-- A collection with a tag, without its parts. -/
def hollow? : Tag → Option Built
  | .seq | .set => some (.list [])
  | .omap | .pairs => some (.pairs [])
  | .map => some (.object [])
  | _ => none

/-- Builds a node, unless that has been done. The parts of a collection have to wait. -/
def start (id : Nat) : Build Unit := do
  if (← built? id).isNone then
    match hollow? (← node id).tag with
    | some b => do
      put id b
      modify fun s => { s with waiting := id :: s.waiting }
    | none => put id (.leaf (← leaf id))

/-- Builds the key of an entry, which must be a single value. -/
def startKey (id : Nat) : Build Unit := do
  start id
  match ← built? id with
  | some (.leaf _) => return ()
  | _ => refuse

/-- Takes the first entry out of a mapping under which others are merged, and gives its value. -/
def takeMerge (id : Nat) : Build (Option Nat) := do
  let entries ← entriesOf id
  match ← entries.findM? fun e => hasTag .merge e.1 with
  | some e =>
    setEntries id (entries.eraseP (· == e))
    return some e.2
  | none => return none

/-- In a mapping that is built entry by entry, the key of a value that stands for the whole is a
text. -/
def plainKeys (id : Nat) : Build Unit := do
  for (k, _) in ← entriesOf id do
    if ← hasTag .value k then
      modify fun s => { s with nodes := s.nodes.modify k fun n => { n with tag := .str } }

mutual

/-- Takes out of a mapping what is merged into it; gives the entries of the merged mappings. Those
of a list come in reverse, so the first mapping of a list counts most. -/
def merged : (fuel : Nat) → (id : Nat) → Build (List (Nat × Nat))
  | 0, _ => refuse
  | fuel + 1, id => do
    match ← takeMerge id with
    | none => return []
    | some v =>
      let entries ← match (← node v).content with
        | .mapping _ => do
          flatten fuel v
          entriesOf v
        | .sequence items => do
          let each ← items.mapM fun item => do
            let _ ← entriesOf item
            flatten fuel item
            entriesOf item
          pure each.reverse.flatten
        | .scalar _ => refuse
      return entries ++ (← merged fuel id)

/-- Puts the entries of the merged mappings before the entries of a mapping. -/
def flatten : (fuel : Nat) → (id : Nat) → Build Unit
  | 0, _ => refuse
  | fuel + 1, id => do
    let entries ← merged fuel id
    plainKeys id
    setEntries id (entries ++ (← entriesOf id))

end

def entries (id : Nat) : Build (List (Nat × Nat)) := do
  flatten (← get).depth id
  let entries ← entriesOf id
  for (k, v) in entries do
    startKey k
    start v
  return entries

/-- Builds the only entry of a mapping. -/
def soleEntry (id : Nat) : Build (Nat × Nat) := do
  match ← entriesOf id with
  | [(k, v)] => do
    start k
    start v
    return (k, v)
  | _ => refuse

/-- Fields with one more, which replaces the one of its name. -/
def withField (fields : List (String × Nat)) (key : String) (id : Nat) : List (String × Nat) :=
  if fields.any fun f => f.1 == key then
    fields.map fun f => if f.1 == key then (key, id) else f
  else fields ++ [(key, id)]

/-- The entries of a mapping whose keys are texts. -/
def textFields (entries : List (Nat × Nat)) : Build (List (String × Nat)) :=
  entries.foldlM (fun fields e => do
    match ← built? e.1 with
    | some (.leaf (.text key)) => return withField fields key e.2
    | _ => return fields) []

/-- Builds the parts of a collection. -/
def finish (id : Nat) : Build Unit := do
  let n ← node id
  match n.tag, n.content with
  | .seq, .sequence items => do
    items.forM start
    put id (.list items)
  | .map, .mapping _ => put id (.object (← textFields (← entries id)))
  | .set, .mapping _ => put id (.list ((← entries id).map (·.1)))
  | .omap, .sequence items => put id (.pairs (← items.mapM soleEntry))
  | .pairs, .sequence items => put id (.pairs (← items.mapM soleEntry))
  | _, _ => refuse

/-- Builds all parts of the collections that wait, level by level. `fuel` bounds the number of
levels. -/
def finishAll : (fuel : Nat) → Build Unit
  | 0 => return ()
  | fuel + 1 => do
    let ids := (← get).waiting.reverse
    if !ids.isEmpty then
      modify fun s => { s with waiting := [] }
      ids.forM finish
      finishAll fuel

end Build

/-- What a node is to, given the values of all nodes. -/
def Built.value (values : Array Value) (b : Built) : Value :=
  let part (id : Nat) : Value := values[id]?.getD .null
  match b with
  | .leaf v => v
  | .list items => .list (items.map part)
  | .pairs entries => .list (entries.map fun e => .list [part e.1, part e.2])
  | .object fields => .object (fields.map fun f => (f.1, part f.2))

/-- The values of nodes down to a depth, below which there is nothing. A collection may hold itself,
so there has to be an end. -/
def valuesTo (built : Array (Option Built)) : (depth : Nat) → Array Value
  | 0 => #[]
  | depth + 1 =>
    let below := valuesTo built depth
    built.map fun b => (b.map (·.value below)).getD .null

/-- How many levels of a document are told apart. -/
def levels : Nat := 16

/-- A document: its value, and which fields of it are one and the same, because one of them is an
alias of the other. -/
structure Document where
  value : Value
  /-- The other names of the part under a name. -/
  twins : String → List String := fun _ => []

/-- The document of a graph. -/
def Graph.document (g : Graph) : Except Problem Document := do
  let size := g.nodes.foldl (fun n x => match x.content with
    | .mapping entries => n + entries.length
    | _ => n) 0
  let build : Build Unit := do
    Build.start g.root
    Build.finishAll (g.nodes.size + 1)
  let (_, s) ← build.run
    { nodes := g.nodes, built := .replicate g.nodes.size none, depth := 2 * size + 4 }
  let fields := match s.built[g.root]?.join with
    | some (.object fields) => fields
    | _ => []
  let twins (name : String) : List String :=
    match fields.find? fun f => f.1 == name with
    | some (_, id) => (fields.filter fun f => f.1 != name && f.2 == id).map (·.1)
    | none => []
  return { value := (valuesTo s.built levels)[g.root]?.getD .null, twins }

/-- Whether a character may stand in a document. -/
def isAllowed (c : Char) : Bool :=
  let n := c.toNat
  n == 0x09 || n == 0x0A || n == 0x0D || (0x20 ≤ n && n ≤ 0x7E) || n == 0x85
    || (0xA0 ≤ n && n ≤ 0xFFFD) || 0x10000 ≤ n

/-- A text with each of its line ends as a line feed. -/
def normalLines : List Char → List Char
  | '\r' :: '\n' :: cs => '\n' :: normalLines cs
  | '\r' :: cs => '\n' :: normalLines cs
  | c :: cs => c :: normalLines cs
  | [] => []

/-- The document that a text spells. A text without any is the document of nothing. All characters
are checked before any token is read; where a long text is checked piece by piece instead, one that
fails in two ways can fail in the other of them. -/
def Document.read (s : String) : Except Problem Document := do
  let cs := normalLines s.toList
  if !cs.all isAllowed then throw .notYaml
  match ← Graph.ofTokens (.ofChars cs) with
  | some g => g.document
  | none => return { value := .null }

end ChainIndexer.Yaml
