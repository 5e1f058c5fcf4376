import ChainIndexer.Evm.Client
import ChainIndexer.Solana.Client
import ChainIndexer.Transport

/-!
The client of a network, picked once by the kind of its ledger. A network without an adapter has a
client too, all of whose activities fail.
-/

namespace ChainIndexer

/-- A client of some kind of ledger. -/
inductive Client where
  | evm (c : Evm.Client)
  | solana (c : Solana.Client)
  | unsupported (network : Network)
  deriving DecidableEq, Repr

namespace Client

/-- The client for some options, if they name a usable address. -/
def ofOptions (o : Options) : Except Failure Client :=
  match o.network.ledger with
  | .evm => (Evm.Client.ofOptions o).map .evm
  | .solana => (Solana.Client.ofOptions o).map .solana
  | .unsupported => .ok (.unsupported o.network)

def network : Client → Network
  | .evm c => c.network
  | .solana c => c.network
  | .unsupported n => n

def title : Client → String
  | .evm _ => "EvmClient"
  | .solana _ => "SolanaClient"
  | .unsupported _ => "UnsupportedClient"

/-- The failure of a client for what is no position on its ledger. -/
def wrongCursor (c : Client) (position : Candidate) : Failure :=
  match c with
  | .evm _ => Evm.Client.wrongCursor position
  | .solana _ => Solana.Client.wrongCursor position
  | .unsupported network => .unsupported "fetching" network.word

/-- What a client remembers from one activity to the next. -/
def Memory : Client → Type
  | .evm _ => Evm.Timestamps
  | .solana _ => Solana.Backlog
  | .unsupported _ => Unit

def fresh : (c : Client) → c.Memory
  | .evm _ => ([] : Evm.Timestamps)
  | .solana _ => ({} : Solana.Backlog)
  | .unsupported _ => ()

variable {n : Type → Type} [Monad n]

/-- The ledger of a network without an adapter. -/
def unsupportedAdapter (network : Network) : Adapter n where
  fetch _ := throw (.unsupported "fetching" network.word)
  process _ := throw (.unsupported "processing" network.word)

def adapter : (c : Client) → Rpc n → Adapter (StateT c.Memory n)
  | .evm c, rpc => c.adapter rpc
  | .solana c, rpc => c.adapter rpc
  | .unsupported network, _ => unsupportedAdapter network

end Client

/-- How the node of a client is reached. An empty token is none. -/
def Transport.ofOptions (o : Options) : Transport where
  url := o.rpcUrl
  timeout := .real o.timeout
  maxRetries := o.maxRetries.toNat
  backoffSeconds := .real o.backoffSeconds
  backoffCap := .real o.backoffCap
  headers := match o.apiToken with
    | some token => if token.isEmpty then [] else [authorization token]
    | none => []

end ChainIndexer
