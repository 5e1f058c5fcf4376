/-!
Letter case. Only the ASCII letters matter to the program: addresses, topics, the `0x` of a numeral
and fixed phrases are all ASCII. The one character outside ASCII that a lower casing sends into it
is the Kelvin sign, which `toLower` therefore sends to `k`.
-/

namespace ChainIndexer.Text

/-- The lower case of one character, as far as the result is an ASCII letter. -/
def lowerChar (c : Char) : Char :=
  if c = '\u212A' then 'k' else c.toLower

/-- The lower case of a text, as far as the results are ASCII letters. -/
def toLower (s : String) : String :=
  String.ofList (s.toList.map lowerChar)

/-- The upper case of one character, as far as the result is an ASCII letter. The dotless `ı`
and the long `ſ` are the two characters outside ASCII that have one. -/
def upperChar (c : Char) : Char :=
  if c = '\u0131' then 'I' else if c = '\u017F' then 'S' else c.toUpper

/-- The upper case of a text, as far as the results are ASCII letters. -/
def toUpper (s : String) : String :=
  String.ofList (s.toList.map upperChar)

/-- Whether `needle` is a prefix of some end of `hay`. -/
def containsList (needle : List Char) : List Char → Bool
  | [] => needle.isEmpty
  | c :: cs => needle.isPrefixOf (c :: cs) || containsList needle cs

def contains (hay needle : String) : Bool :=
  containsList needle.toList hay.toList

/-- What remains of a text after a given beginning. -/
def afterStart? : (start cs : List Char) → Option (List Char)
  | [], cs => some cs
  | _ :: _, [] => none
  | p :: ps, c :: cs => if p = c then afterStart? ps cs else none

def startsWith (s start : String) : Bool :=
  (afterStart? start.toList s.toList).isSome

end ChainIndexer.Text
