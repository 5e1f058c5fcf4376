import ChainIndexer.Client
import ChainIndexer.Indexer
import ChainIndexer.Settings.Load
import ChainIndexer.Settings.LogLevel
import ChainIndexer.Webhook

/-!
The program put together from its settings: the client and its node, the file of the cursor, the
sink and the pace of the loop. Without an address for deliveries payloads are kept in memory.
-/

namespace ChainIndexer

/-- Where payloads go. -/
inductive Sink where
  | memory
  | webhook (w : Webhook)

/-- All that is settled before the loop begins. -/
structure Setup where
  client : Client
  transport : Transport
  checkpoint : Checkpoint
  sink : Sink
  interval : Amount
  retry : RetryPolicy
  levels : Settings.LogLevels

namespace Settings

/-- The options of the client, which are validated once more. -/
def clientOptions (s : Settings) : Except Failure Options :=
  Options.make
    [("network", .text s.network), ("rpc_url", .text s.node.url),
      ("api_token", .ofText? s.node.apiToken), ("contract_address", .text s.contractAddress),
      ("page_size", .int s.loop.pageSize), ("timeout", .float s.node.timeout),
      ("max_retries", .int s.node.maxRetries), ("backoff_seconds", .float s.node.backoffSeconds),
      ("backoff_cap", .float s.node.backoffCap)]

def sink (s : Settings) : Sink :=
  match s.delivery.url with
  | some url =>
    .webhook { url, token := s.delivery.token, timeout := .real s.delivery.timeout }
  | none => .memory

/-- The pace of the loop after failures. -/
def retryPolicy (s : Settings) : RetryPolicy where
  initialDelay := .real s.loop.retry.initialDelay
  factor := .real s.loop.retry.factor
  maxDelay := .real s.loop.retry.maxDelay

/-- The wait between two steps, in seconds. -/
def interval (s : Settings) : Except Fault Amount :=
  match Binary64.ofInt? s.loop.intervalMs with
  | some ms => .ok (.real (ms / 1000))
  | none => .error .overflow

end Settings

def directoryOf (file : String) : String :=
  let steps := Files.stepsOf file
  let parent := "/".intercalate steps.dropLast
  if file.toList.head? == some '/' then "/" ++ parent
  else if parent.isEmpty then "."
  else parent

namespace Setup

variable {n : Type → Type} [Monad n]

/-- Puts the program together; makes the directory of the file of the cursor. -/
def ofSettings (disk : Disk n) (s : Settings) : Act n Setup := do
  let options ← s.clientOptions
  let client ← Client.ofOptions options
  disk.makeDirectory (directoryOf s.checkpointFile)
  let interval ← s.interval
  return {
    client
    transport := .ofOptions options
    checkpoint := ⟨s.checkpointFile⟩
    sink := s.sink
    interval
    retry := s.retryPolicy
    levels := .ofWhole (.number (Settings.levelOfName s.logLevel)) }

/-- Loads the settings and puts the program together. -/
def load (docs : Settings.Documents n) (env : Settings.Environment) (disk : Disk n)
    (path : String) : Act n Setup := do
  let s ← Settings.load docs env path
  ofSettings disk s

/-- What the program needs of the world around it. -/
structure World (n : Type → Type) where
  http : Http n
  disk : Disk n
  sleep : Amount → n Unit
  /-- Keeps a payload in memory. -/
  keep : Push.Payload → n Unit
  /-- Whether the loop has been asked to end. -/
  isStopped : n Bool

/-- The base monad of a run: beside the world there are the number of the next post and the memory
of the client. -/
abbrev Stage (s : Setup) (n : Type → Type) := StateT s.client.Memory (StateT Nat n)

/-- The delivery of a payload. -/
def push (s : Setup) (w : World n) (p : Push.Payload) : Act n Unit :=
  match s.sink with
  | .memory => Act.sure (w.keep p)
  | .webhook hook => hook.push w.http p

/-- The loop of the program. -/
def indexer (s : Setup) (w : World n) : Indexer (s.Stage n) where
  adapter := s.client.adapter (s.transport.call w.http)
  disk := w.disk.within.within
  checkpoint := s.checkpoint
  push p := Act.within (Act.within (s.push w p))
  interval := s.interval
  retry := s.retry
  sleep a := StateT.lift (StateT.lift (w.sleep a))
  isStopped := StateT.lift (StateT.lift w.isStopped)

/-- Does an activity of a run from its start. -/
def play (s : Setup) {α : Type} (x : Act (s.Stage n) α) : n (Except Failure α) := do
  let ((result, _), _) ← (x.run.run s.client.fresh).run Transport.firstId
  return result

end Setup

end ChainIndexer
