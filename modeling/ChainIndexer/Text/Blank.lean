/-!
Which characters count as blank. Two classes are in use: the narrow one, which is the Unicode
property `White_Space`, is what may stand around a numeral; the wide one, which also holds the four
separator controls U+001C to U+001F, is what is trimmed off a text, be it an address, a key or the
size of a page.
-/

namespace ChainIndexer.Text

/-- The Unicode property `White_Space`. -/
def isSpace (c : Char) : Bool :=
  let n := c.toNat
  (0x09 ≤ n && n ≤ 0x0D) || n == 0x20 || n == 0x85 || n == 0xA0 || n == 0x1680 ||
    (0x2000 ≤ n && n ≤ 0x200A) || n == 0x2028 || n == 0x2029 || n == 0x202F || n == 0x205F ||
    n == 0x3000

/-- `White_Space` together with the information separators U+001C to U+001F. -/
def isBlank (c : Char) : Bool :=
  isSpace c || (0x1C ≤ c.toNat && c.toNat ≤ 0x1F)

theorem isBlank_of_isSpace {c : Char} (h : isSpace c = true) : isBlank c = true := by
  simp [isBlank, h]

def dropTrailing (p : Char → Bool) (cs : List Char) : List Char :=
  (cs.reverse.dropWhile p).reverse

def trim (p : Char → Bool) (cs : List Char) : List Char :=
  dropTrailing p (cs.dropWhile p)

def strip (s : String) : String :=
  String.ofList (trim isBlank s.toList)

def allBlank (s : String) : Bool :=
  s.toList.all isBlank

end ChainIndexer.Text
