import ChainIndexer.Yaml.Form
import ChainIndexer.Yaml.Token

/-!
The nodes of a document as a graph. A node has a number, and what it holds is given by the numbers
of other nodes, so an alias is no node of its own and a collection may hold itself. `Graph.ofTokens`
reads the one document of a text. A name is given to one node only, and from there on it can be
used, inside that node too.
-/

namespace ChainIndexer.Yaml

/-- What a node holds: a text, or other nodes by their numbers. -/
inductive Content where
  | scalar (s : String)
  | sequence (items : List Nat)
  | mapping (entries : List (Nat × Nat))

structure Node where
  tag : Tag
  content : Content

/-- The nodes of a document, and the number of the one that is its whole. -/
structure Graph where
  nodes : Array Node
  root : Nat

/-- The state of reading nodes: the tokens that are left, the fault that comes then, the nodes read
so far, their names, the meanings of tag handles, and how many collections are open. -/
structure Composer where
  tokens : List Token
  fault : Option Problem
  nodes : Array Node := #[]
  anchors : List (String × Nat) := []
  handles : List (String × String) := []
  depth : Nat := 0

/-- A step of reading nodes. -/
abbrev Compose (α : Type) := StateT Composer (Except Problem) α

namespace Compose

/-- The tokens are no document. -/
def refuse {α : Type} : Compose α := throw .notYaml

def peek : Compose (Option Token) := do
  let s ← get
  match s.tokens, s.fault with
  | t :: _, _ => return some t
  | [], some e => throw e
  | [], none => return none

def pop : Compose Unit :=
  modify fun s => { s with tokens := s.tokens.drop 1 }

/-- Whether the next token is one of the given ones. -/
def isAt (ts : List Token) : Compose Bool := do
  match ← peek with
  | some t => return ts.contains t
  | none => return false

/-- Passes over a token if it is the next one; tells whether it was. -/
def accept (t : Token) : Compose Bool := do
  let found ← isAt [t]
  if found then pop
  return found

/-- Passes over a token that has to come next. -/
def expect (t : Token) : Compose Unit := do
  if !(← accept t) then refuse

def add (tag : Tag) (content : Content) : Compose Nat := do
  let s ← get
  set { s with nodes := s.nodes.push ⟨tag, content⟩ }
  return s.nodes.size

def fill (id : Nat) (content : Content) : Compose Unit :=
  modify fun s => { s with nodes := s.nodes.modify id fun n => { n with content } }

def empty : Compose Nat :=
  add .null (.scalar "")

/-- The name and the tag that a node is given. -/
structure Properties where
  anchor : Option String := none
  tag : Option String := none

def fullTag (t : TagName) : Compose String := do
  match t.resolve? (← get).handles with
  | some s => return s
  | none => refuse

/-- The properties of a node, each at most once. -/
def properties : Compose Properties := do
  match ← peek with
  | some (.anchor name) =>
    pop
    match ← peek with
    | some (.tag t) => do pop; return ⟨some name, some (← fullTag t)⟩
    | _ => return ⟨some name, none⟩
  | some (.tag t) =>
    pop
    match ← peek with
    | some (.anchor name) => do pop; return ⟨some name, some (← fullTag t)⟩
    | _ => return ⟨none, some (← fullTag t)⟩
  | _ => return {}

namespace Properties

def isEmpty (p : Properties) : Bool :=
  p.anchor.isNone && p.tag.isNone

/-- The tag of a node, with the one that it has if none is given. -/
def tagOr (p : Properties) (own : Tag) : Tag :=
  match p.tag with
  | none => own
  | some s => if s = openTag then own else .ofName s

/-- The tag of a scalar. A quoted one is a text, unless its tag is the open one. -/
def scalarTag (p : Properties) (plain : Bool) (text : String) : Tag :=
  if p.tag.isNone && !plain then .str else p.tagOr (.ofPlain text)

end Properties

/-- Adds a node with some properties, of which the name must be a new one. -/
def declare (p : Properties) (tag : Tag) (content : Content) : Compose Nat := do
  match p.anchor with
  | none => add tag content
  | some name =>
    if (← get).anchors.any fun a => a.1 == name then refuse
    let id ← add tag content
    modify fun s => { s with anchors := (name, id) :: s.anchors }
    return id

/-- How deep collections may be nested. What is bounded is the number of calls under way, so the
number depends on how deep in calls the reading itself starts; this one is for a start near the top.
-/
def maxDepth : Nat := 488

/-- Reads what is inside of a collection. -/
def inside {α : Type} (x : Compose α) : Compose α := do
  let depth := (← get).depth
  if maxDepth ≤ depth then throw .tooDeep
  modify fun s => { s with depth := depth + 1 }
  let a ← x
  modify fun s => { s with depth }
  return a

/-- The node of a name. -/
def named (name : String) : Compose Nat := do
  match (← get).anchors.find? fun a => a.1 == name with
  | some (_, id) => return id
  | none => refuse

mutual

/-- A node. Blocks may stand only where `block` holds, and a sequence that is not indented only
where `flat` holds. A node that consists of its properties is an empty one. -/
def node : (fuel : Nat) → (block flat : Bool) → Compose Nat
  | 0, _, _ => refuse
  | fuel + 1, block, flat => do
    if let some (.alias name) ← peek then
      pop
      return ← named name
    let p ← properties
    let sequence (items : Compose (List Nat)) : Compose Nat := do
      let id ← declare p (p.tagOr .seq) (.sequence [])
      fill id (.sequence (← inside items))
      return id
    let mapping (entries : Compose (List (Nat × Nat))) : Compose Nat := do
      let id ← declare p (p.tagOr .map) (.mapping [])
      fill id (.mapping (← inside entries))
      return id
    match ← peek with
    | some (.scalar plain text) => do
      pop
      declare p (p.scalarTag plain text) (.scalar text)
    | some .openBracket => sequence do pop; flowItems fuel true []
    | some .openBrace => mapping do pop; flowEntries fuel true []
    | some .dash =>
      if flat then sequence (flatItems fuel [])
      else if p.isEmpty then refuse
      else declare p (p.scalarTag true "") (.scalar "")
    | some .openSequence =>
      if block then sequence do pop; blockItems fuel []
      else if p.isEmpty then refuse
      else declare p (p.scalarTag true "") (.scalar "")
    | some .openMapping =>
      if block then mapping do pop; blockEntries fuel []
      else if p.isEmpty then refuse
      else declare p (p.scalarTag true "") (.scalar "")
    | _ =>
      if p.isEmpty then refuse else declare p (p.scalarTag true "") (.scalar "")

/-- A node, or an empty one before some tokens. -/
def nodeUntil (ends : List Token) : (fuel : Nat) → (block flat : Bool) → Compose Nat
  | 0, _, _ => refuse
  | fuel + 1, block, flat => do
    if ← isAt ends then empty else node fuel block flat

/-- The value of an entry: a node behind a colon, or nothing. -/
def valueUntil (ends : List Token) : (fuel : Nat) → (block : Bool) → Compose Nat
  | 0, _ => refuse
  | fuel + 1, block => do
    if ← accept .colon then nodeUntil ends fuel block block else empty

/-- The items of a sequence in a block, the earlier ones in `done`, last first. -/
def blockItems : (fuel : Nat) → (done : List Nat) → Compose (List Nat)
  | 0, _ => refuse
  | fuel + 1, done => do
    if ← accept .dash then
      let id ← nodeUntil [.dash, .closeBlock] fuel true false
      blockItems fuel (id :: done)
    else
      expect .closeBlock
      return done.reverse

/-- The items of a sequence that is not indented. -/
def flatItems : (fuel : Nat) → (done : List Nat) → Compose (List Nat)
  | 0, _ => refuse
  | fuel + 1, done => do
    if ← accept .dash then
      let id ← nodeUntil [.dash, .key, .colon, .closeBlock] fuel true false
      flatItems fuel (id :: done)
    else return done.reverse

/-- The entries of a mapping in a block. -/
def blockEntries : (fuel : Nat) → (done : List (Nat × Nat)) → Compose (List (Nat × Nat))
  | 0, _ => refuse
  | fuel + 1, done => do
    if ← accept .key then
      let k ← nodeUntil [.key, .colon, .closeBlock] fuel true true
      let v ← valueUntil [.key, .colon, .closeBlock] fuel true
      blockEntries fuel ((k, v) :: done)
    else
      expect .closeBlock
      return done.reverse

/-- The items of a sequence in brackets. One that begins as a key is a mapping of a single entry. -/
def flowItems : (fuel : Nat) → (first : Bool) → (done : List Nat) → Compose (List Nat)
  | 0, _, _ => refuse
  | fuel + 1, first, done => do
    if ← accept .closeBracket then return done.reverse
    if !first then expect .comma
    if ← accept .key then
      let id ← add .map (.mapping [])
      let k ← nodeUntil [.colon, .comma, .closeBracket] fuel false false
      let v ← valueUntil [.comma, .closeBracket] fuel false
      fill id (.mapping [(k, v)])
      flowItems fuel false (id :: done)
    else if ← accept .closeBracket then return done.reverse
    else
      let id ← node fuel false false
      flowItems fuel false (id :: done)

/-- The entries of a mapping in braces. A node that is no key has nothing for its value. -/
def flowEntries : (fuel : Nat) → (first : Bool) → (done : List (Nat × Nat)) →
    Compose (List (Nat × Nat))
  | 0, _, _ => refuse
  | fuel + 1, first, done => do
    if ← accept .closeBrace then return done.reverse
    if !first then expect .comma
    if ← accept .key then
      let k ← nodeUntil [.colon, .comma, .closeBrace] fuel false false
      let v ← valueUntil [.comma, .closeBrace] fuel false
      flowEntries fuel false ((k, v) :: done)
    else if ← accept .closeBrace then return done.reverse
    else
      let k ← node fuel false false
      let v ← empty
      flowEntries fuel false ((k, v) :: done)

end

/-- The directives in front of a document: one version at most, which is a first one, and one
meaning for each handle. -/
def directives : (fuel : Nat) → (versioned : Bool) → Compose Unit
  | 0, _ => refuse
  | fuel + 1, versioned => do
    match ← peek with
    | some (.directive d) =>
      pop
      match d with
      | .version major =>
        if versioned || major ≠ 1 then refuse
        directives fuel true
      | .handle name meaning =>
        if (← get).handles.any fun h => h.1 == name then refuse
        modify fun s => { s with handles := (name, meaning) :: s.handles }
        directives fuel versioned
      | .other => directives fuel versioned
    | _ => return ()

/-- Passes over the marks at the end of a document. -/
def endMarks : (fuel : Nat) → Compose Unit
  | 0 => refuse
  | fuel + 1 => do
    if ← accept .documentEnd then endMarks fuel

/-- Whether the next token is none of a document, but one in front of it or behind it. -/
def isBetween : Compose Bool := do
  match ← peek with
  | some (.directive _) | some .documentStart | some .documentEnd | none => return true
  | _ => return false

/-- The one document of a text, if there is one. It needs no mark at its start, unless directives
stand in front of it. -/
def document : Compose (Option Nat) := do
  let fuel := 4 * (← get).tokens.length + 4
  let root ← match ← peek with
    | none => return none
    | some (.directive _) | some .documentStart => do
      directives fuel false
      expect .documentStart
      if ← isBetween then empty else node fuel true false
    | _ => node fuel true false
  endMarks fuel
  if (← peek).isSome then
    directives fuel false
    let _ ← peek
    refuse
  return some root

end Compose

/-- The document of some tokens, nothing if there is none. -/
def Graph.ofTokens (ts : Tokens) : Except Problem (Option Graph) := do
  let (root, s) ← Compose.document.run { tokens := ts.list, fault := ts.fault }
  return root.map fun root => ⟨s.nodes, root⟩

end ChainIndexer.Yaml
