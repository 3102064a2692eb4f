import Relay.Search.Channel

/-!
# Producers

A producer answers a query in the background: it sends its results in order and stops when they
are used up, when it fails, or when it is told to.
-/

namespace Relay

/-- What a producer does next. -/
inductive Emission where
  | item (e : Envelope)
  | fail (e : QueryError)
  deriving DecidableEq

inductive ProducerState where
  | running
  | finished
  | failed
  | cancelled
  deriving DecidableEq

structure Producer where
  channel : Channel
  script : List Emission
  /-- Results the channel has taken, read or not. -/
  sent : Nat := 0
  state : ProducerState := .running

namespace Producer

def start (buffer : Nat) (script : List Emission) : Producer :=
  { channel := .ofBuffer buffer, script }

def stop (p : Producer) (state : ProducerState) : Producer :=
  { p with channel := p.channel.dropSink, script := [], state }

/-- One attempt to go on. Nothing changes while there is no room. -/
def step (p : Producer) : Producer :=
  if p.state ≠ .running then p
  else
    match p.script with
    | [] => p.stop .finished
    | .item e :: rest =>
      match p.channel.send e with
      | (.sent, channel) => { p with channel, script := rest, sent := p.sent + 1 }
      | (.pending, _) => p
      | _ => p.stop .cancelled
    | .fail e :: _ =>
      match p.channel.fail e with
      | (.failed, channel) => { p with channel }.stop .failed
      | _ => p

def steps (p : Producer) : Nat → Producer
  | 0 => p
  | n + 1 => p.step.steps n

/-- Goes on until nothing can move: each step takes from the script, ends the producer, or
finds no room, as all later ones then do. -/
def settle (p : Producer) : Producer := p.steps (p.script.length + 1)

/-- Takes what is in front of the channel. -/
def next (p : Producer) : Channel.Answer × Producer :=
  let (answer, channel) := p.channel.next
  (answer, { p with channel })

/-- Drops the consumer's end. -/
def hangUp (p : Producer) : Producer := { p with channel := p.channel.dropStream }

/-- What a consumer sees that lets the producer run as far ahead as it can before each of at
most `count` reads. It stops after the end. -/
def events (p : Producer) : Nat → List Channel.Answer
  | 0 => []
  | count + 1 =>
    let (answer, p) := p.settle.next
    match answer with
    | .item e => .item e :: p.events count
    | answer => [answer]

end Producer

end Relay
