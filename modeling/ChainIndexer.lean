import ChainIndexer.Abi.Reader
import ChainIndexer.Abi.Ty
import ChainIndexer.Abi.Value
import ChainIndexer.Abi.Writer
import ChainIndexer.Adapter
import ChainIndexer.Bytes.Base58
import ChainIndexer.Bytes.Base64
import ChainIndexer.Bytes.Endian
import ChainIndexer.Bytes.Hex
import ChainIndexer.Checkpoint
import ChainIndexer.Client
import ChainIndexer.CommandLine
import ChainIndexer.Cursor
import ChainIndexer.Cursor.Candidate
import ChainIndexer.Cursor.Stored
import ChainIndexer.Disk
import ChainIndexer.Effects
import ChainIndexer.Evm.Client
import ChainIndexer.Evm.Contract
import ChainIndexer.Evm.Event
import ChainIndexer.Evm.Topic
import ChainIndexer.Failure
import ChainIndexer.Fault
import ChainIndexer.Hash.Keccak
import ChainIndexer.Hash.Sha256
import ChainIndexer.Http
import ChainIndexer.Indexer
import ChainIndexer.Job
import ChainIndexer.Json.Printer
import ChainIndexer.Json.Reader
import ChainIndexer.Main
import ChainIndexer.Network
import ChainIndexer.Number.Amount
import ChainIndexer.Number.Binary64
import ChainIndexer.Number.Decimal
import ChainIndexer.Number.Numeral
import ChainIndexer.Number.Power
import ChainIndexer.Number.Shortest
import ChainIndexer.Options
import ChainIndexer.Push.Code
import ChainIndexer.Push.Payload
import ChainIndexer.Push.Record
import ChainIndexer.Push.Vocabulary
import ChainIndexer.RetryPolicy
import ChainIndexer.Schema.Field
import ChainIndexer.Schema.Numerals
import ChainIndexer.Settings
import ChainIndexer.Settings.Load
import ChainIndexer.Settings.LogLevel
import ChainIndexer.Settings.PageSize
import ChainIndexer.Setup
import ChainIndexer.Solana.Account
import ChainIndexer.Solana.Borsh
import ChainIndexer.Solana.Client
import ChainIndexer.Solana.Instruction
import ChainIndexer.Solana.Program
import ChainIndexer.Text.Blank
import ChainIndexer.Text.Digit
import ChainIndexer.Text.Letter
import ChainIndexer.Text.Printable
import ChainIndexer.Text.Quoted
import ChainIndexer.Text.Utf8
import ChainIndexer.Transport
import ChainIndexer.Value
import ChainIndexer.Value.Access
import ChainIndexer.Value.Quoted
import ChainIndexer.Webhook
import ChainIndexer.Yaml.Block
import ChainIndexer.Yaml.Directive
import ChainIndexer.Yaml.Document
import ChainIndexer.Yaml.Form
import ChainIndexer.Yaml.Line
import ChainIndexer.Yaml.Node
import ChainIndexer.Yaml.Plain
import ChainIndexer.Yaml.Problem
import ChainIndexer.Yaml.Quoted
import ChainIndexer.Yaml.Scalar
import ChainIndexer.Yaml.Stamp
import ChainIndexer.Yaml.Tag
import ChainIndexer.Yaml.Token
import ChainIndexer.Yaml.Token.Lexer
import ChainIndexer.Proofs.Abi
import ChainIndexer.Proofs.Activity
import ChainIndexer.Proofs.Checkpoint
import ChainIndexer.Proofs.Course
import ChainIndexer.Proofs.DedupeKey
import ChainIndexer.Proofs.Deduplication
import ChainIndexer.Proofs.Delivery
import ChainIndexer.Proofs.Evm.Coverage
import ChainIndexer.Proofs.Evm.Delivery
import ChainIndexer.Proofs.Evm.Order
import ChainIndexer.Proofs.Evm.Page
import ChainIndexer.Proofs.Evm.Processing
import ChainIndexer.Proofs.Files
import ChainIndexer.Proofs.JsonText
import ChainIndexer.Proofs.Numeral
import ChainIndexer.Proofs.Outage
import ChainIndexer.Proofs.Power
import ChainIndexer.Proofs.Record
import ChainIndexer.Proofs.RetryPolicy
import ChainIndexer.Proofs.Sign
import ChainIndexer.Proofs.Solana.Backlog
import ChainIndexer.Proofs.Solana.Coverage
import ChainIndexer.Proofs.Solana.Delivery
import ChainIndexer.Proofs.Solana.Keys
import ChainIndexer.Proofs.Solana.Page
import ChainIndexer.Proofs.Solana.Processing
import ChainIndexer.Proofs.Solana.Walk
import ChainIndexer.Proofs.Step
import ChainIndexer.Proofs.StoredCursor
import ChainIndexer.Proofs.World
import ChainIndexer.Proofs.Checkpoint.Atomicity
import ChainIndexer.Proofs.Checkpoint.History
import ChainIndexer.Proofs.AllOrNothing
import ChainIndexer.Proofs.Evm.Refusal
import ChainIndexer.Proofs.Solana.Refusal
import ChainIndexer.Proofs.Guards
import ChainIndexer.Proofs.Evm.Topic
import ChainIndexer.Proofs.Evm.Decoding
import ChainIndexer.Proofs.Solana.Format
import ChainIndexer.Proofs.Solana.Account
import ChainIndexer.Proofs.Solana.Decoding
import ChainIndexer.Proofs.JsonValue
import ChainIndexer.Proofs.Validity
import ChainIndexer.Proofs.Wire
import ChainIndexer.Proofs.Checkpoint.ReadBack
import ChainIndexer.Proofs.Checkpoint.Damage
import ChainIndexer.Proofs.WellFormed
import ChainIndexer.Proofs.Evm.WellFormed
import ChainIndexer.Proofs.Solana.WellFormed
import ChainIndexer.Proofs.Processing
import ChainIndexer.Proofs.Magnitude
import ChainIndexer.Proofs.Attempts
import ChainIndexer.Proofs.Budget
import ChainIndexer.Proofs.Schedule
import ChainIndexer.Proofs.Trouble
import ChainIndexer.Proofs.AbiRefusal
import ChainIndexer.Proofs.Evm.Undecoded
import ChainIndexer.Proofs.Trim
import ChainIndexer.Proofs.Evm.Contract
import ChainIndexer.Proofs.Evm.Arrangement
import ChainIndexer.Proofs.Evm.Stamps
import ChainIndexer.Proofs.Smooth
import ChainIndexer.Proofs.Evm.CatchUp
import ChainIndexer.Proofs.Solana.CatchUp
import ChainIndexer.Proofs.CatchUp
import ChainIndexer.Proofs.Base58
import ChainIndexer.Proofs.Solana.Address
import ChainIndexer.Proofs.Yaml.Twins
import ChainIndexer.Proofs.Settings.Override
import ChainIndexer.Proofs.Settings.Load
import ChainIndexer.Proofs.Settings.Usable
import ChainIndexer.Proofs.Setup
import ChainIndexer.Proofs.Schema
import ChainIndexer.Proofs.Solana.Termination
import ChainIndexer.Proofs.Solana.Reading
import ChainIndexer.Proofs.Solana.Telling
