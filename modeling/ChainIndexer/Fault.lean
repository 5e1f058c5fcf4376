/-!
What an operation refuses by its own rules, before any rule of the program comes in: a value of the
wrong shape, a text that is no numeral, bytes that are no text, a file that is not there.
-/

namespace ChainIndexer

/-- The refusals of the basic operations. -/
inductive Fault where
  /-- An operation on a value of the wrong type. -/
  | wrongType
  /-- A value of the wrong type was asked for one of its members. -/
  | noMember
  /-- A value of the right type that cannot be used. -/
  | badValue
  | missingKey
  | badIndex
  | overflow
  | notUtf8
  | notAscii
  | notJson
  | notYaml
  /-- A text in which collections are nested too deep. -/
  | tooDeep
  /-- Bytes that are no encoding of the expected contract types. -/
  | notAbi
  /-- A value that the expected contract type does not have. -/
  | notEncodable
  /-- A status of 400 to 599. -/
  | badStatus
  | noSuchFile
  | fileExists
  | isDirectory
  | notDirectory
  | nameTooLong
  deriving DecidableEq, Repr

namespace Fault

/-- The refusals that say of a value of the right type that it cannot be used. -/
def isBadValue : Fault → Bool
  | badValue | notUtf8 | notAscii | notJson => true
  | _ => false

/-- The refusals of the file system, and of the exchange of requests with a server. -/
def isSystem : Fault → Bool
  | noSuchFile | fileExists | isDirectory | notDirectory | nameTooLong | badStatus => true
  | _ => false

end Fault

end ChainIndexer
