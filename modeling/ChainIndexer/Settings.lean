import ChainIndexer.RetryPolicy
import ChainIndexer.Settings.PageSize
import ChainIndexer.Text.Letter

/-!
The settings of the program: how a node is reached, how the loop paces itself, where the cursor is
kept and where payloads go. A text with a dollar sign before an opening brace is a placeholder that
nothing was put in for: a token or an address for deliveries that is one counts as absent, and so
does a blank one.
-/

namespace ChainIndexer

open Schema

/-- How the node is reached. -/
structure NodeSettings where
  url : String
  apiToken : Option String := none
  timeout : Float := 30
  maxRetries : Int := 3
  backoffSeconds : Float := 0.5
  backoffCap : Float := 8

/-- How the loop waits after failures. -/
structure RetrySettings where
  initialDelay : Float := 1
  factor : Float := 2
  maxDelay : Float := 60

/-- How the loop paces itself. -/
structure LoopSettings where
  pageSize : Int := Settings.defaultPageSize
  intervalMs : Int := 100
  retry : RetrySettings := {}

/-- Where payloads go. -/
structure DeliverySettings where
  url : Option String := none
  token : Option String := none
  timeout : Float := 10

structure Settings where
  network : String
  contractAddress : String
  node : NodeSettings
  loop : LoopSettings
  checkpointFile : String
  delivery : DeliverySettings
  logLevel : String

namespace Settings

/-- Whether a text holds a placeholder. -/
def isPlaceholder (s : String) : Bool :=
  Text.contains s "$\x7b"

/-- The address of a node in the place of a placeholder. -/
def placeholderUrl : String := "https://example.invalid"

/-- An address of a node, which is one of HTTP. -/
def nodeUrl : Reader String :=
  refined text fun s =>
    if isPlaceholder s then .ok placeholderUrl
    else if Text.startsWith s "https://" || Text.startsWith s "http://" then .ok s
    else problem .refused

/-- A text that may be absent; a placeholder and a blank text are. -/
def usableText : Reader (Option String) :=
  refined (optional text) fun
    | some s => .ok (if isPlaceholder s || Text.allBlank s then none else some s)
    | none => .ok none

def nodeOf (fields : Fields) : Checked NodeSettings :=
  let read := (required nodeUrl fields "url").map NodeSettings.mk
  let read := read.apply (withDefault none usableText fields "api_token")
  let read := read.apply (withDefault 30 float fields "timeout")
  let read := read.apply (withDefault 3 whole fields "max_retries")
  let read := read.apply (withDefault 0.5 float fields "backoff_seconds")
  read.apply (withDefault 8 float fields "backoff_cap")

def retryOf (fields : Fields) : Checked RetrySettings :=
  let read := (withDefault 1 float fields "initial_delay").map RetrySettings.mk
  let read := read.apply (withDefault 2 float fields "factor")
  read.apply (withDefault 60 float fields "max_delay")

def loopOf (fields : Fields) : Checked LoopSettings :=
  let read := (withDefault defaultPageSize pageSizeField fields "page_size").map LoopSettings.mk
  let read := read.apply (withDefault 100 whole fields "interval_ms")
  read.apply (withDefault {} (record retryOf) fields "retry")

/-- The name of the file of the cursor where none is given. -/
def defaultCheckpointFile : String := "checkpoint.json"

def checkpointOf (fields : Fields) : Checked String :=
  withDefault defaultCheckpointFile text fields "file"

def deliveryOf (fields : Fields) : Checked DeliverySettings :=
  let read := (withDefault none usableText fields "url").map DeliverySettings.mk
  let read := read.apply (withDefault none usableText fields "token")
  read.apply (withDefault 10 float fields "timeout")

/-- Reads settings. Fields that are none are passed over. -/
def ofFields (fields : Fields) : Checked Settings :=
  let read := (withDefault "ethereum" text fields "network").map Settings.mk
  let read := read.apply (required text fields "contract_address")
  let read := read.apply (required (record nodeOf) fields "rpc")
  let read := read.apply (withDefault {} (record loopOf) fields "indexer")
  let read := read.apply
    (withDefault defaultCheckpointFile (record checkpointOf) fields "checkpoint")
  let read := read.apply (withDefault {} (record deliveryOf) fields "push")
  read.apply (withDefault "INFO" text fields "log_level")

/-- Settings out of a value, or the failure to validate them. -/
def ofValue (v : Value) : Except Failure Settings :=
  (record ofFields v).orFail "Settings"

end Settings

end ChainIndexer
