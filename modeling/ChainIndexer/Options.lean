import ChainIndexer.Network
import ChainIndexer.Settings.PageSize

/-!
The options of a client.
-/

namespace ChainIndexer

open Schema

/-- What a client needs to know. -/
structure Options where
  network : Network
  rpcUrl : String
  contractAddress : String
  apiToken : Option String
  pageSize : Int
  timeout : Float
  maxRetries : Int
  backoffSeconds : Float
  backoffCap : Float

namespace Options

/-- Reads options. Fields that are no options are passed over. -/
def ofFields (fields : Fields) : Checked Options :=
  let read := (required (word Network) fields "network").map Options.mk
  let read := read.apply (required text fields "rpc_url")
  let read := read.apply (required text fields "contract_address")
  let read := read.apply (withDefault none (optional text) fields "api_token")
  let read := read.apply
    (withDefault Settings.defaultPageSize Settings.pageSizeField fields "page_size")
  let read := read.apply (withDefault 30 float fields "timeout")
  let read := read.apply (withDefault 3 whole fields "max_retries")
  let read := read.apply (withDefault 0.5 float fields "backoff_seconds")
  read.apply (withDefault 8 float fields "backoff_cap")

/-- Options out of their fields, or the failure to validate them. -/
def make (fields : Fields) : Except Failure Options :=
  (ofFields fields).orFail "ClientOptions"

end Options

end ChainIndexer
