import ChainIndexer.Http
import ChainIndexer.Push.Payload

/-!
Delivery of payloads to an address that takes them as JSON. Each post names its payload by the key
of the payload, so that the receiver can drop one that comes again.
-/

namespace ChainIndexer

structure Webhook where
  url : String
  token : Option String := none
  timeout : Amount := .real 10

namespace Webhook

/-- The headers of a post; an empty token is none. -/
def headers (w : Webhook) (p : Push.Payload) : List (String × Value) :=
  let fixed := [("Content-Type", .text "application/json"), ("Idempotency-Key", .text p.dedupeKey)]
  match w.token with
  | some token => if token.isEmpty then fixed else fixed ++ [authorization token]
  | none => fixed

variable {n : Type → Type} [Monad n]

def push (w : Webhook) (http : Http n) (p : Push.Payload) : Act n Unit := do
  let body ← p.toJson
  let answer ← Act.sure (http.post ⟨w.url, w.headers p, w.timeout, .text body⟩)
  match answer with
  | .ok answer => if 300 ≤ answer.status then throw (.pushRefused w.url answer.status)
  | .error e =>
    if e.problem.isPassing then throw (.pushFailed w.url e.text)
    else throw (.request e.problem e.text)

end Webhook

end ChainIndexer
