import ChainIndexer.Yaml.Directive

/-!
The tokens of a text of YAML. Blocks are made explicit: where a line is indented further a block is
opened by a token, and where the indentation ends it is closed by one. The tokens of a text end with
the text or with the fault that stands in the way of reading on.
-/

namespace ChainIndexer.Yaml

inductive Token where
  | directive (d : Directive)
  | documentStart
  | documentEnd
  | openSequence
  | openMapping
  /-- The end of a sequence or a mapping in a block. -/
  | closeBlock
  | openBracket
  | closeBracket
  | openBrace
  | closeBrace
  /-- The dash before an item in a block. -/
  | dash
  | comma
  /-- What follows is the key of an entry. -/
  | key
  /-- What follows is the value of an entry. -/
  | colon
  | alias (name : String)
  | anchor (name : String)
  | tag (t : TagName)
  | scalar (plain : Bool) (text : String)
  deriving DecidableEq, Repr

/-- The tokens of a text, as far as they can be read, and the fault that comes then. -/
structure Tokens where
  list : List Token
  fault : Option Problem

end ChainIndexer.Yaml
