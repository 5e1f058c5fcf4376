import ChainIndexer.Cursor.Candidate
import ChainIndexer.Fault
import ChainIndexer.Push.Vocabulary
import ChainIndexer.Yaml.Problem

/-!
Why an operation of the program did not succeed. A failure is kept as its cause: `Failure.kind` says
which handlers it concerns, and `Failure.text` is the one place where it gets its wording.
-/

namespace ChainIndexer

/-- What is wrong with one field of a record. -/
inductive FieldProblem where
  | missing | intType | intParsing | intParsingSize | intFromFloat | finiteNumber | atLeast | atMost
  | floatType | floatParsing | stringType | stringUnicode | enumeration | literal | unknownField
  | modelType | attributesType | tagNotFound | tagInvalid
  /-- A rule of the program for this field. -/
  | refused
  deriving DecidableEq, Repr

/-- A field, by its path from the record, and what is wrong with it. -/
structure FieldError where
  path : List String
  problem : FieldProblem
  deriving DecidableEq, Repr

/-- How a request can fail before there is an answer. -/
inductive RequestProblem where
  | requestException | httpError | connectionError | proxyError | sslError | timeout
  | connectTimeout | readTimeout | urlRequired | tooManyRedirects | missingSchema | invalidSchema
  | invalidUrl | invalidHeader | invalidProxyUrl | chunkedEncodingError | contentDecodingError
  | streamConsumedError | retryError | unrewindableBodyError
  deriving DecidableEq, Repr

namespace RequestProblem

/-- The name of a problem, as it stands in messages. -/
def name : RequestProblem → String
  | .requestException => "RequestException"
  | .httpError => "HTTPError"
  | .connectionError => "ConnectionError"
  | .proxyError => "ProxyError"
  | .sslError => "SSLError"
  | .timeout => "Timeout"
  | .connectTimeout => "ConnectTimeout"
  | .readTimeout => "ReadTimeout"
  | .urlRequired => "URLRequired"
  | .tooManyRedirects => "TooManyRedirects"
  | .missingSchema => "MissingSchema"
  | .invalidSchema => "InvalidSchema"
  | .invalidUrl => "InvalidURL"
  | .invalidHeader => "InvalidHeader"
  | .invalidProxyUrl => "InvalidProxyURL"
  | .chunkedEncodingError => "ChunkedEncodingError"
  | .contentDecodingError => "ContentDecodingError"
  | .streamConsumedError => "StreamConsumedError"
  | .retryError => "RetryError"
  | .unrewindableBodyError => "UnrewindableBodyError"

def all : List RequestProblem :=
  [requestException, httpError, connectionError, proxyError, sslError, timeout, connectTimeout,
    readTimeout, urlRequired, tooManyRedirects, missingSchema, invalidSchema, invalidUrl,
    invalidHeader, invalidProxyUrl, chunkedEncodingError, contentDecodingError, streamConsumedError,
    retryError, unrewindableBodyError]

def ofName? (s : String) : Option RequestProblem :=
  all.find? fun p => p.name == s

/-- The problems of time and of the connection, after which the same request may succeed. -/
def isPassing : RequestProblem → Bool
  | .connectionError | .proxyError | .sslError | .timeout | .connectTimeout | .readTimeout => true
  | _ => false

/-- The problems with the address or a header of a request. -/
def isBadValue : RequestProblem → Bool
  | .missingSchema | .invalidSchema | .invalidUrl | .invalidHeader | .invalidProxyUrl => true
  | _ => false

end RequestProblem

/-- Why a post to a node is repeated. -/
inductive Retry where
  | status (code : Int)
  | request (problem : RequestProblem) (text : String)
  | throttled (error : Value)
  | behind (error : Value)

/-- The kinds of failure that handlers tell apart. -/
inductive Kind where
  | fault (f : Fault)
  | invalid
  | request (p : RequestProblem)
  | badValue | badType | decode | transient | delivery | jobMismatch | unsupportedNetwork
  | checkpoint | regression | rpc | rpcTransport | configuration
  deriving DecidableEq, Repr

namespace Kind

/-- Refusals of a value of the right type. -/
def isBadValue : Kind → Bool
  | .fault f => f.isBadValue
  | .invalid | .badValue => true
  | .request p => p.isBadValue
  | _ => false

/-- Failures after which the same iteration may succeed. -/
def isTransient : Kind → Bool
  | .transient | .delivery | .rpcTransport => true
  | _ => false

/-- Failures of the file system or of the exchange of requests. -/
def isSystem : Kind → Bool
  | .fault f => f.isSystem
  | .request _ => true
  | _ => false

/-- Failures of a node and of the configuration, and texts that are nested too deep. -/
def isRuntime : Kind → Bool
  | .rpc | .rpcTransport | .configuration | .fault .tooDeep => true
  | _ => false

end Kind

/-- Why an operation of the program did not succeed. -/
inductive Failure where
  /-- A basic operation refused. -/
  | fault (f : Fault)
  /-- The file system refused an operation on a path. -/
  | file (f : Fault) (path : String)
  /-- A document could not be read. -/
  | document (p : Yaml.Problem)
  /-- A record did not validate. -/
  | invalid (model : String) (errors : List FieldError)
  /-- A request found no answer. -/
  | request (p : RequestProblem) (text : String)
  /-- A part of the program that was given from outside failed, in its own words. -/
  | foreign (k : Kind) (text : String)
  -- cursors
  | heightNotNatural
  | signatureEmpty
  | unknownCursorType (kind : Value)
  | notACursor (v : Value)
  -- vocabularies and addresses
  | noVariant (title : String) (v : Value)
  | contractEmpty
  | contractInvalid (v : Value)
  | programInvalid (v : Value)
  | programNotKey (v : Value)
  -- clients in general
  | jobMismatch (client network job : String)
  | unsupported (activity network : String)
  | wrongCursor (ledger position : String) (c : Candidate)
  | notAList (method : String)
  -- the EVM client
  | notHex (v : Value)
  | tooFewTopics (count index : Nat)
  | topicLength (index length : Nat)
  | idTooWide
  | addressPadded
  | blockRangeInvalid
  | blockNotReady (n : Whole)
  | noState (signature : String) (block : Whole)
  | noTopics (tx : String)
  | eventUndecoded (event : Push.EventName) (tx : String) (cause : Failure)
  -- the Solana client
  | walkUnfinished
  | bytesMissing (count offset left : Nat)
  | textNotUtf8 (offset : Nat)
  | fixedTextNotUtf8
  | wrongAccountType (name : String)
  | transactionNotReady (signature : Value)
  | accountMissing (key : Value)
  | accountForeign (key : Value) (program : String)
  | accountNoData (key : Value)
  | noMessage (signature : Value)
  | instructionShort (length : Nat)
  | recordAccountMissing (instruction : String) (count index : Nat)
  | instructionUndecoded (index : Nat) (signature : Value) (cause : Failure)
  -- the checkpoint
  | checkpointUnreadable (cause : Failure)
  | checkpointUnwritable (cause : Failure)
  | regression (previous new : Candidate)
  -- requests and deliveries
  | rpcAnswer (method : String) (error : Value)
  | rpcStatus (method : String)
  | rpcExhausted (method url : String) (attempts : Nat) (reason : Retry)
  | pushFailed (url text : String)
  | pushRefused (url : String) (status : Int)
  -- the settings
  | configuration (path : String) (cause : Failure)

namespace Failure

instance : Coe Fault Failure := ⟨.fault⟩

/-- The refusal of a basic operation is a failure of the operation that uses it. -/
instance : MonadLift (Except Fault) (Except Failure) where
  monadLift x := x.mapError .fault

def kind : Failure → Kind
  | .fault f | .file f _ => .fault f
  | .document p => .fault p.fault
  | .invalid .. => .invalid
  | .request p _ => .request p
  | .foreign k _ => k
  | .heightNotNatural | .signatureEmpty | .unknownCursorType _ | .noVariant .. | .contractEmpty
  | .contractInvalid _ | .programInvalid _ | .programNotKey _ | .wrongCursor ..
  | .blockRangeInvalid => .badValue
  | .notACursor _ => .badType
  | .jobMismatch .. => .jobMismatch
  | .unsupported .. => .unsupportedNetwork
  | .notAList _ | .notHex _ | .tooFewTopics .. | .topicLength .. | .idTooWide | .addressPadded
  | .noState .. | .noTopics _ | .eventUndecoded .. | .bytesMissing .. | .textNotUtf8 _
  | .fixedTextNotUtf8 | .wrongAccountType _ | .accountMissing _ | .accountForeign ..
  | .accountNoData _ | .noMessage _ | .instructionShort _ | .recordAccountMissing ..
  | .instructionUndecoded .. => .decode
  | .blockNotReady _ | .transactionNotReady _ | .walkUnfinished => .transient
  | .checkpointUnreadable _ | .checkpointUnwritable _ => .checkpoint
  | .regression .. => .regression
  | .rpcAnswer .. | .rpcStatus _ => .rpc
  | .rpcExhausted .. => .rpcTransport
  | .pushFailed .. | .pushRefused .. => .delivery
  | .configuration .. => .configuration

def errors? : Failure → Option (List FieldError)
  | .invalid _ es => some es
  | .eventUndecoded _ _ c | .instructionUndecoded _ _ c | .checkpointUnreadable c
  | .checkpointUnwritable c | .configuration _ c => c.errors?
  | _ => none

private def num (n : Nat) : String := Numeral.natural n

/-- The reason for another post, in a message. -/
def reasonText : Retry → String
  | .status code => "HTTP " ++ Numeral.decimal code
  | .request p text => p.name ++ ": " ++ text
  | .throttled e => "throttled: " ++ e.shown
  | .behind e => "node behind: " ++ e.shown

/-- The wording of a failure. Failures without a wording of their own, which are those of the basic
operations and of validation, get the one that `plain` gives them. -/
def text (plain : Failure → String) : Failure → String
  | .fault f => plain (.fault f)
  | .file f path => plain (.file f path)
  | .document p => plain (.document p)
  | .invalid model es => plain (.invalid model es)
  | .request _ text => text
  | .foreign _ text => text
  | .heightNotNatural => "height must be a non negative integer"
  | .signatureEmpty => "signature must be a non empty string"
  | .unknownCursorType kind => "unknown cursor type: " ++ kind.quoted
  | .notACursor v => "not a cursor: " ++ v.quoted
  | .noVariant title v => title ++ " has no variant " ++ v.quoted
  | .contractEmpty => "Empty contract address."
  | .contractInvalid v => "Invalid contract address: " ++ v.quoted ++ " (need 20-byte hex)"
  | .programInvalid v => "Invalid program address: " ++ v.quoted
  | .programNotKey v => "Invalid program address: " ++ v.quoted ++ " (need 32 bytes)"
  | .jobMismatch client network job => client ++ " for " ++ network ++ " cannot process " ++ job
  | .unsupported activity network => activity ++ " is not supported for " ++ network
  | .wrongCursor ledger position c =>
    ledger ++ " network needs a " ++ position ++ " cursor, got " ++ c.shown
  | .notAList method => "RPC response for " ++ method ++ " did not return a list"
  | .notHex v => "not a hex string: " ++ v.quoted
  | .tooFewTopics count index =>
    "log has " ++ num count ++ " topics, topic " ++ num index ++ " required"
  | .topicLength index length =>
    "topic " ++ num index ++ " is " ++ num length ++ " bytes, expected 32"
  | .idTooWide => "indexed id does not fit in 128 bits"
  | .addressPadded => "indexed address has non zero padding"
  | .blockRangeInvalid => "invalid block range"
  | .blockNotReady n => "block " ++ Value.shownWhole n ++ " not available yet"
  | .noState signature block =>
    signature ++ " returned no data at block " ++ Value.shownWhole block
  | .noTopics tx => "log without topics tx=" ++ tx
  | .eventUndecoded event tx cause =>
    Push.Vocabulary.word event ++ " tx=" ++ tx ++ ": " ++ cause.text plain
  | .walkUnfinished => "the walk over the signatures is not finished"
  | .bytesMissing count offset left =>
    "need " ++ num count ++ " bytes at offset " ++ num offset ++ ", have " ++ num left
  | .textNotUtf8 offset => "invalid utf-8 string at offset " ++ num offset
  | .fixedTextNotUtf8 => "invalid utf-8 in fixed size field"
  | .wrongAccountType name => "account data is not a " ++ name
  | .transactionNotReady signature =>
    "transaction " ++ signature.shown ++ " not available yet"
  | .accountMissing key => "account " ++ key.shown ++ " does not exist"
  | .accountForeign key program =>
    "account " ++ key.shown ++ " is not owned by " ++ program
  | .accountNoData key => "account " ++ key.shown ++ " has no base64 data"
  | .noMessage signature => "transaction " ++ signature.shown ++ " has no message"
  | .instructionShort length =>
    "instruction data too short (" ++ num length ++ " bytes)"
  | .recordAccountMissing instruction count index =>
    instruction ++ " has " ++ num count ++ " accounts, record at " ++ num index
  | .instructionUndecoded index signature cause =>
    "instruction " ++ num index ++ " tx=" ++ signature.shown ++ ": " ++ cause.text plain
  | .checkpointUnreadable cause => "Failed to read checkpoint: " ++ cause.text plain
  | .checkpointUnwritable cause => "Failed to write checkpoint: " ++ cause.text plain
  | .regression previous new =>
    "cursor would move back from " ++ previous.shown ++ " to " ++ new.shown
  | .rpcAnswer method error => "RPC error for " ++ method ++ ": " ++ error.shown
  | .rpcStatus method => "RPC error for " ++ method ++ ": " ++ plain (.fault .badStatus)
  | .rpcExhausted method url attempts reason =>
    "RPC " ++ method ++ " failed after " ++ num attempts ++ " attempts url=" ++ url ++ ": " ++
      reasonText reason
  | .pushFailed url text => "push to " ++ url ++ " failed: " ++ text
  | .pushRefused url status => "push to " ++ url ++ " answered " ++ Numeral.decimal status
  | .configuration path cause => "Configuration error in " ++ path ++ ": " ++ cause.text plain

/-- Whether the wording of a failure is its own. -/
def hasText : Failure → Bool
  | .fault _ | .file .. | .document _ | .invalid .. => false
  | _ => true

end Failure

end ChainIndexer
