import ChainIndexer.Effects
import ChainIndexer.Number.Amount

/-!
Posts over HTTP, and the waiting between them. A clock counts nanoseconds in 64 bits, so there are
waits that it refuses (`Clock.refusal`).
-/

namespace ChainIndexer

/-- What is posted: a value as JSON, or a text as it is. -/
inductive Content where
  | json (v : Value)
  | text (s : String)

/-- A post. -/
structure Post where
  url : String
  headers : List (String × Value)
  /-- After how many seconds an answer is no longer awaited. -/
  timeout : Amount
  content : Content

/-- The answer to a post. -/
structure Answer where
  status : Int
  body : String

namespace Answer

/-- Whether the status says that the request or the server was at fault. -/
def isError (a : Answer) : Bool :=
  400 ≤ a.status && a.status < 600

end Answer

/-- Why there was no answer to a post. -/
structure NoAnswer where
  problem : RequestProblem
  text : String

namespace Clock

/-- The first number of nanoseconds that is too great for a clock. -/
def limit : Int := 2 ^ 63

/-- What keeps a clock from a wait of some seconds, if anything does: it would go back in time, or
there are too many nanoseconds. A clock that has been running for some time may stop as much short
of its limit. -/
def refusal : Amount → Option Fault
  | .whole w =>
    let nanoseconds := w.toInt * 1000000000
    if nanoseconds < -limit ∨ limit ≤ nanoseconds then some .overflow
    else if nanoseconds < 0 then some .badValue
    else none
  | .real x =>
    let nanoseconds := x * 1000000000
    if Binary64.shape x = .nan then some .badValue
    else if Binary64.ltInt nanoseconds (-limit) || !Binary64.ltInt nanoseconds limit then
      some .overflow
    else if Binary64.ltInt x 0 then some .badValue
    else none

end Clock

/-- What is needed of a connection: posting, waiting for some seconds unless the clock refuses that,
and a number from zero up to one by which the waits of several clients are kept apart. A connection
that only pretends to wait refuses nothing. -/
structure Http (n : Type → Type) where
  post : Post → n (Except NoAnswer Answer)
  /-- The fault with which a wait is refused, before it is made. -/
  refusal : Amount → Option Fault := fun _ => none
  pause : Amount → n Unit
  jitter : n Float

/-- The header that carries a token. -/
def authorization (token : String) : String × Value :=
  ("Authorization", .text ("Bearer " ++ token))

end ChainIndexer
