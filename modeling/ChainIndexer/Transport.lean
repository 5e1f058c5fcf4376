import ChainIndexer.Http
import ChainIndexer.Json.Reader
import ChainIndexer.Text.Letter
import ChainIndexer.Value.Access

/-!
Calls of a node's methods, as JSON-RPC over HTTP. A post that found no answer in time, met a busy
server, was throttled or reached a node that is behind is repeated after a wait that doubles each
time; every other failure ends the call at once, and so does a wait that is out of range or that the
clock refuses. Each post carries a number of its own.
-/

namespace ChainIndexer

/-- How a node is reached. -/
structure Transport where
  url : String
  timeout : Amount := .real 30
  /-- How often a post is repeated. -/
  maxRetries : Nat := 3
  backoffSeconds : Amount := .real 0.5
  backoffCap : Amount := .real 8
  headers : List (String × Value) := []

namespace Transport

def retryableStatus : List Int := [429, 500, 502, 503, 504]

def throttleCodes : List Int := [429, -32005]

/-- The codes of a node that is behind the block or slot that was asked for. -/
def lagCodes : List Int := [-32004, -32014, -32016]

/-- What a node that is behind says. -/
def lagMessages : List String := ["header not found", "block not available", "minimum context slot"]

/-- How a single post ends. -/
inductive Outcome where
  | result (v : Value)
  /-- The post may be repeated. -/
  | retry (reason : Retry)
  | failed (f : Failure)

/-- Whether an error of a node carries one of some codes. -/
def hasCode (error : Value) (codes : List Int) : Bool :=
  match error with
  | .object fields =>
    match Value.field? fields "code" with
    | some code => codes.any code.isInt
    | none => false
  | _ => false

/-- What an error that a node answered leads to. -/
def ofError (method : String) (error : Value) : Outcome :=
  let words := Text.toLower error.shown
  if hasCode error throttleCodes || Text.contains words "rate limit"
      || Text.contains words "too many" then .retry (.throttled error)
  else if hasCode error lagCodes || lagMessages.any (Text.contains words) then
    .retry (.behind error)
  else .failed (.rpcAnswer method error)

/-- What a body leads to. -/
def ofBody (method : String) (body : Value) : Outcome :=
  match body with
  | .object fields =>
    match Value.field? fields "error" with
    | none | some .null => .result ((Value.field? fields "result").getD .null)
    | some error => ofError method error
  | .list items =>
    .failed (.fault (if items.any (·.isText "error") then .wrongType else .noMember))
  | .text s => .failed (.fault (if Text.contains s "error" then .wrongType else .noMember))
  | _ => .failed (.fault .wrongType)

/-- What an answer leads to. -/
def ofAnswer (method : String) (answer : Answer) : Outcome :=
  if retryableStatus.contains answer.status then .retry (.status answer.status)
  else if answer.isError then .failed (.rpcStatus method)
  else match Json.read answer.body with
    | .ok body => ofBody method body
    | .error e => .failed (.fault e)

/-- What becomes of a post. -/
def outcome (method : String) : Except NoAnswer Answer → Outcome
  | .ok answer => ofAnswer method answer
  | .error e =>
    if e.problem.isPassing then .retry (.request e.problem e.text)
    else .failed (.request e.problem e.text)

def request (id : Nat) (method : String) (params : List Value) : Value :=
  .object
    [("jsonrpc", .text "2.0"), ("id", .int id), ("method", .text method), ("params", .list params)]

/-- The wait before a post is repeated for the `attempt`-th time, `none` if it is out of range. -/
def backoff? (t : Transport) (jitter : Float) (attempt : Nat) : Option Amount := do
  let growing ← t.backoffSeconds.mul? (.ofInt (2 ^ attempt))
  (t.backoffCap.least growing).mul? (.real (0.8 + 0.4 * jitter))

/-- The wait before a post is repeated, unless it is out of range or the clock refuses it. -/
def backoff (t : Transport) (refusal : Amount → Option Fault) (jitter : Float) (attempt : Nat) :
    Except Fault Amount :=
  match t.backoff? jitter attempt with
  | none => .error .overflow
  | some wait =>
    match refusal wait with
    | some f => .error f
    | none => .ok wait

variable {n : Type → Type} [Monad n]

/-- Posts a request until it need not be repeated, `retries` more times at most. -/
def attempts (t : Transport) (http : Http n) (method : String) (params : List Value) :
    (retries attempt : Nat) → Act (StateT Nat n) Value
  | retries, attempt => do
    let id ← Act.memory
    Act.remember (id + 1)
    let answer ← Act.within (Act.sure (http.post
      ⟨t.url, t.headers, t.timeout, .json (request id method params)⟩))
    match outcome method answer with
    | .result v => return v
    | .failed f => throw f
    | .retry reason =>
      match retries with
      | 0 => throw (.rpcExhausted method t.url (attempt + 1) reason)
      | retries + 1 => do
        let jitter ← Act.within (Act.sure http.jitter)
        let wait ← t.backoff http.refusal jitter attempt
        Act.within (Act.sure (http.pause wait))
        attempts t http method params retries (attempt + 1)

/-- Calls a method. The memory beside the world is the number of the next post. -/
def call (t : Transport) (http : Http n) : Rpc (StateT Nat n) :=
  fun method params => t.attempts http method params t.maxRetries 0

/-- The parameters of a call as a list, which is empty in the place of nothing. -/
def listed (params : Value) : Except Fault (List Value) :=
  (params.orElse (.list [])).elements

/-- Calls a method with parameters as they come. -/
def callWith (t : Transport) (http : Http n) (method : String) (params : Value) :
    Act (StateT Nat n) Value := do
  t.call http method (← listed params)

def firstId : Nat := 1

end Transport

end ChainIndexer
