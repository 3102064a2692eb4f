import Relay.Http.Answering

/-!
# Channels that have to be made

The queue of the notification worker is made when a cafe starts, the channel of a query when a
search has been read. The runtime does not make channels of every capacity: `makes` says of which it
does, and whoever asks for another one breaks off. What is started where the channel is made is what
`Cafe.ofConfig` and `Cafe.answer` say.
-/

namespace Relay

namespace Channel

/-- The largest capacity of a channel: three bits less than a word. -/
def maxCapacity : Nat := (2 ^ 64 - 1) / 2 ^ 3

/-- The capacities that the runtime documents. -/
def documented (capacity : Nat) : Bool := 1 ≤ capacity && capacity ≤ maxCapacity

def make? (makes : Nat → Bool) (buffer : Nat) : Option Channel :=
  let capacity := max 1 buffer
  if makes capacity then some { capacity } else none

end Channel

def Notifier.spawn? {τ : Type} (makes : Nat → Bool) (capacity timeout : Nat) :
    Option (Notifier τ) :=
  if makes capacity then some { capacity, timeout } else none

namespace Response

def start? (makes : Nat → Bool) (buffer : Nat) (script : List Emission) : Option Response := do
  let channel ← Channel.make? makes buffer
  return { producer := { channel, script } }

def ofScript? (makes : Nat → Bool) (buffer : Nat) (script : List Emission) (most : Option Nat) :
    Option Response := do
  let begun ← start? makes buffer script
  return begun.drive most (script.length + 4)

/-- The answer that a response to a search makes. -/
def answer (r : Response) : Answer :=
  match r.state with
  | .empty => .ofStatus 200
  | .refused e => .ofError e
  | _ =>
    { status := 200, headers := [("content-type", "application/octet-stream")]
      body := .frames r }

end Response

namespace Cafe

/-- Starts a cafe with nothing in it. -/
def start? (makes : Nat → Bool) (config : Config) : Option Cafe := do
  let notifier ← Notifier.spawn? makes config.notifyQueueCapacity config.notifyTimeout
  return { config, content := { limit := config.maxObjectSize }, notifier }

def search? (makes : Nat → Bool) (c : Cafe) (peer : String) (query : Envelope) : Option Response :=
  Response.ofScript? makes c.config.queryBuffer (c.emissions peer query) none

/-- What a search asks, and for whom. -/
def queryOf (c : Cafe) (peer : String) (r : Request) : Except Answer (PeerId × Envelope) := do
  let body ← c.bodyOf r
  let read : Except RequestError (PeerId × Envelope) := do
    return (← peerIdOf peer, ← envelopeOf body)
  read.mapError .ofError

def answerSearch? (makes : Nat → Bool) (peer : String) (r : Request) (c : Cafe) : Option Answer :=
  match c.queryOf peer r with
  | .error a => some a
  | .ok (peer, query) => (c.search? makes peer.text query).map Response.answer

/-- Answers a request at a moment, unless it is a search whose channel is not made. -/
def answer? (makes : Nat → Bool) (now : Instant) (r : Request) (c : Cafe) :
    Option (Answer × Cafe) :=
  match Route.ofPath? r.path, r.method, r.peer? with
  | some .search, .post, some peer =>
    (c.answerSearch? makes peer r).map fun a =>
      (a.withHeader "access-control-allow-origin" "*", c)
  | _, _, _ => some (c.answer now r)

end Cafe

end Relay
