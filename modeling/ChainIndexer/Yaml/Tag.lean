import ChainIndexer.Text.Digit
import ChainIndexer.Text.Utf8
import ChainIndexer.Yaml.Line

/-!
Tags of YAML. A tag is written with a handle, which a directive can give a meaning, and a suffix, or
in angle brackets as a whole. What it means for a node is a `Tag`: one of the types of the YAML 1.1
repository, or something that no type belongs to.
-/

namespace ChainIndexer.Yaml

/-- A tag as it is written: without a handle if the suffix is the whole of it. -/
structure TagName where
  handle : Option String
  suffix : String
  deriving DecidableEq, Repr

/-- What every tag of the repository begins with. -/
def repository : String := "tag:yaml.org,2002:"

/-- The handles that have a meaning without a directive. -/
def defaultHandles : List (String × String) := [("!", "!"), ("!!", repository)]

/-- The tag in full, if its handle has a meaning. -/
def TagName.resolve? (t : TagName) (handles : List (String × String)) : Option String :=
  match t.handle with
  | none => some t.suffix
  | some h => ((handles ++ defaultHandles).find? fun p => p.1 == h).map fun p => p.2 ++ t.suffix

/-- The tag that leaves it to the text what a scalar stands for. -/
def openTag : String := "!"

/-- The types of values. -/
inductive Tag where
  | null | bool | int | float | binary | timestamp | str
  | seq | map | set | omap | pairs
  /-- The key under which other mappings are merged into one. -/
  | merge
  /-- The key of the value that stands for its mapping. -/
  | value
  /-- A tag that no type belongs to. -/
  | unknown
  deriving DecidableEq, Repr

/-- The types by their names in the repository. -/
def Tag.names : List (String × Tag) :=
  [("null", .null), ("bool", .bool), ("int", .int), ("float", .float), ("binary", .binary),
    ("timestamp", .timestamp), ("str", .str), ("seq", .seq), ("map", .map), ("set", .set),
    ("omap", .omap), ("pairs", .pairs), ("merge", .merge), ("value", .value)]

/-- The type of a tag in full. -/
def Tag.ofName (s : String) : Tag :=
  ((names.find? fun n => repository ++ n.1 == s).map (·.2)).getD .unknown

def isTagChar (c : Char) : Bool :=
  c.isAlphanum || "-;/?:@&=+$,_.!~*'()[]%".toList.contains c

/-- The bytes that are written by escapes at the head of a text, and what follows them. -/
def escapedBytes : List Char → Except Problem (Bytes × List Char)
  | '%' :: a :: b :: rest =>
    match Text.hexDigit? a, Text.hexDigit? b with
    | some x, some y => (escapedBytes rest).map fun (bs, r) => (UInt8.ofNat (x * 16 + y) :: bs, r)
    | _, _ => .error .notYaml
  | '%' :: _ => .error .notYaml
  | cs => .ok ([], cs)

/-- The characters of a tag at the head of a text, and what follows them. Escapes are bytes in
UTF-8. `fuel` bounds the number of characters. -/
def tagChars : (fuel : Nat) → List Char → Except Problem (List Char × List Char)
  | 0, cs => .ok ([], cs)
  | _, [] => .ok ([], [])
  | fuel + 1, c :: cs =>
    if c == '%' then do
      let (bs, rest) ← escapedBytes (c :: cs)
      match Text.decode? bs with
      | some s => (tagChars fuel rest).map fun (more, r) => (s.toList ++ more, r)
      | none => throw .notYaml
    else if isTagChar c then (tagChars fuel cs).map fun (more, r) => (c :: more, r)
    else .ok ([], c :: cs)

/-- The suffix of a tag, or the meaning of a handle: at least one character. -/
def tagText (cs : List Char) : Except Problem (String × List Char) := do
  if !(cs.head?.map isTagChar).getD false then throw .notYaml
  let (text, rest) ← tagChars cs.length cs
  return (String.ofList text, rest)

/-- A handle, behind its first mark: a single mark before a space, or a word or nothing between two
marks. -/
def tagHandle (cs : List Char) : Except Problem (String × List Char) :=
  if cs.head? == some ' ' then .ok ("!", cs)
  else
    match cs.dropWhile isWordChar with
    | '!' :: rest => .ok (String.ofList ('!' :: cs.takeWhile isWordChar ++ ['!']), rest)
    | _ => .error .notYaml

/-- A tag, behind its first mark, and what follows it. -/
def TagName.read (cs : List Char) : Except Problem (TagName × List Char) := do
  let (tag, rest) ← (match cs with
    | '<' :: body => do
      match ← tagText body with
      | (suffix, '>' :: rest) => return (⟨none, suffix⟩, rest)
      | _ => throw .notYaml
    | _ =>
      if isOpen cs then .ok (⟨none, openTag⟩, cs)
      else if (cs.takeWhile fun c => !(c == ' ' || isBreak c)).contains '!' then do
        let (handle, rest) ← tagHandle cs
        let (suffix, rest) ← tagText rest
        return (⟨some handle, suffix⟩, rest)
      else do
        let (suffix, rest) ← tagText cs
        return (⟨some "!", suffix⟩, rest) : Except Problem (TagName × List Char))
  if !isClosed rest then throw .notYaml
  return (tag, rest)

end ChainIndexer.Yaml
