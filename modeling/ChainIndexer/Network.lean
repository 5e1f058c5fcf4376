import ChainIndexer.Push.Vocabulary

/-!
The networks that can be named in the options of a client, and the kind of ledger each of them has.
-/

namespace ChainIndexer

/-- The kinds of ledger. -/
inductive Ledger where
  | evm | solana | unsupported
  deriving DecidableEq, Repr

def Ledger.word : Ledger → String
  | .evm => "evm"
  | .solana => "solana"
  | .unsupported => "unsupported"

inductive Network where
  | ethereum | bsc | sepolia | solana | bitcoin | near
  deriving DecidableEq, Repr

namespace Network

instance : Push.Vocabulary Network where
  title := "Network"
  members := [.ethereum, .bsc, .sepolia, .solana, .bitcoin, .near]
  word
    | .ethereum => "ethereum"
    | .bsc => "bsc"
    | .sepolia => "sepolia"
    | .solana => "solana"
    | .bitcoin => "bitcoin"
    | .near => "near"

def word (n : Network) : String := Push.Vocabulary.word n

def ledger : Network → Ledger
  | .ethereum | .bsc | .sepolia => .evm
  | .solana | .bitcoin => .solana
  | .near => .unsupported

end Network

end ChainIndexer
