import SourceIndex.Http.Message

/-!
# Sessions

All requests of a run go through one session. It keeps what was asked and what came of it, the
waits that were planned between attempts, and whether the run has been cancelled.

A `World` is everything that a session cannot decide: what becomes of a request after those that
were sent before it, and which waits end with the cancellation of the run. What a run does is a
function of its world, so a statement about all worlds covers every server, also one that acts
differently each time it is asked.
-/

namespace SourceIndex.Http

/-- What a session meets. -/
structure World where
  /-- What becomes of a request, given the requests sent before it. Redirects that are followed
  on the way are part of it and no requests of their own. -/
  answer : List Request → Request → Outcome
  /-- Whether the run is cancelled during a wait of some seconds, given the waits before it. -/
  interrupts : List Nat → Nat → Bool

namespace World

/-- A world without a network, in which the run is cancelled during the given waits. -/
def unreachable (interrupts : List Nat → Nat → Bool) : World :=
  { answer := fun _ _ => .refused, interrupts }

/-- Every wait that takes any time ends with the cancellation of the run. -/
def impatient (_ : List Nat) (seconds : Nat) : Bool := 0 < seconds

/-- No wait ends with the cancellation of the run. -/
def patient (_ : List Nat) (_ : Nat) : Bool := false

end World

/-- A request and what became of it. -/
structure Entry where
  request : Request
  outcome : Outcome
deriving Repr, DecidableEq

/-- What a run has asked so far. -/
structure Session where
  log : List Entry
  /-- The seconds of the waits between attempts. -/
  waits : List Nat
  cancelled : Bool
deriving Repr, DecidableEq

namespace Session

/-- A new session, of a run that may be cancelled already. -/
def start (cancelled : Bool) : Session := { log := [], waits := [], cancelled }

/-- The requests that were sent. -/
def sent (session : Session) : List Request := session.log.map (·.request)

/-- The requests that servers have seen. -/
def seen (session : Session) : List Request :=
  (session.log.filter (·.outcome != .refused)).map (·.request)

end Session

/-- What is done in a session and may end with an error. -/
abbrev Online (ε α : Type) := ExceptT ε (StateM Session) α

namespace Online

/-- Stops a run that has been cancelled. -/
def checkCancelled (cancelled : ε) : Online ε Unit := do
  if (← get).cancelled then throw cancelled

/-- Sends a request. -/
def send (world : World) (request : Request) : Online ε Outcome := do
  let session ← get
  let outcome := world.answer session.sent request
  let entry : Entry := { request, outcome }
  set { session with log := session.log ++ [entry] }
  return outcome

/-- Waits for some seconds, unless the run is cancelled meanwhile. -/
def pause (world : World) (cancelled : ε) (seconds : Nat) : Online ε Unit := do
  let session ← get
  let interrupted := world.interrupts session.waits seconds
  set { session with
    waits := session.waits ++ [seconds], cancelled := session.cancelled || interrupted }
  checkCancelled cancelled

/-- Sends what a draft asks for, if it can be sent. -/
def attempt (world : World) (draft : Draft) : Online ε Received :=
  match draft.prepare with
  | .error failure => return .nothing failure
  | .ok (url, request) => return (← send world request).received url

/-! ### Retrying -/

/-- What an attempt means. -/
structure Verdict (ε α : Type) where
  /-- What comes of it when there is no other attempt. -/
  final : Except ε α
  /-- The seconds before another attempt, when one is worth while. -/
  again : Option Nat

/-- Attempts a request until one is final or none is left. The judge is told the number of the
attempt, counted from zero. -/
def retry (world : World) (cancelled : ε) (draft : Draft) (judge : Nat → Received → Verdict ε α) :
    (left number : Nat) → Online ε α
  | 0, number => do
    checkCancelled cancelled
    MonadExcept.ofExcept (judge number (← attempt world draft)).final
  | left + 1, number => do
    checkCancelled cancelled
    let verdict := judge number (← attempt world draft)
    match verdict.again with
    | some seconds =>
      pause world cancelled seconds
      retry world cancelled draft judge left (number + 1)
    | none => MonadExcept.ofExcept verdict.final

/-- Two to the power of the attempt's number, in seconds, as far as 64 bits hold it. -/
def backoff (number : Nat) : Nat := if number < 64 then Nat.pow 2 number else Text.largest64

end Online

end SourceIndex.Http
