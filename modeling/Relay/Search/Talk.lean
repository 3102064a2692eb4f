import Relay.Search.Channel

/-!
# Producer and consumer at once

The two ends of a query channel are on different threads. A send or a fail that has begun goes on by
single moves, which are those that `Channel.send` and `Channel.fail` make in one, and the other end
may act before each of them. A drop of the stream is two moves. A log keeps what was called, what it
answered and whether it used up the signal; a call that cannot be made leaves the talk as it is.
-/

namespace Relay

namespace Channel

/-- A call of the sink that has not returned, and its next move. -/
inductive Sending where
  /-- Looks whether the producer was told to stop. -/
  | looking (e : Envelope)
  | asking (item : Except QueryError Envelope)
  /-- Has got room. -/
  | putting (item : Except QueryError Envelope)

/-- Only a send looks at the signal. -/
def Sending.ofItem : Except QueryError Envelope → Sending
  | .ok e => .looking e
  | .error e => .asking (.error e)

/-- How a call of the sink returns, if it does. -/
inductive Outcome where
  | delivered
  | refused
  | abandoned

structure Logged where
  event : Event
  answer : Answer
  /-- The consumer used up its signal by this call. -/
  raised : Bool

def Outcome.logged (o : Outcome) (item : Except QueryError Envelope) : Logged :=
  match item, o with
  | .ok e, .delivered => ⟨.send e, .sent, false⟩
  | .ok e, .refused => ⟨.send e, .cancelled, false⟩
  | .ok e, .abandoned => ⟨.send e, .pending, false⟩
  | .error e, .abandoned => ⟨.fail e, .pending, false⟩
  | .error e, _ => ⟨.fail e, .failed, false⟩

end Channel

open Channel (Sending Logged)

structure Talk where
  channel : Channel
  /-- The call that the sink is in. -/
  call : Option Sending := none
  /-- The stream is being dropped or has been. -/
  leaving : Bool := false
  log : List Logged := []

namespace Talk

inductive Move where
  | send (e : Envelope)
  | fail (e : QueryError)
  /-- The sink goes on with its call. -/
  | goOn
  /-- The producer gives up a call that waits. -/
  | giveUp
  | isCancelled
  | dropSink
  | next
  | cancel
  | dropStream
  | close

def start (buffer : Nat) : Talk := { channel := .ofBuffer buffer }

def note (t : Talk) (entry : Logged) : Talk := { t with log := t.log ++ [entry] }

def sinkFree (t : Talk) : Bool := t.channel.sinkOpen && t.call.isNone

def streamFree (t : Talk) : Bool := t.channel.streamOpen && !t.leaving

/-- Ends the call that the sink is in. A fail gives up the sink. -/
def finish (t : Talk) (item : Except QueryError Envelope) (o : Channel.Outcome) : Talk :=
  let channel := match item with | .ok _ => t.channel | .error _ => t.channel.dropSink
  { t with channel, call := none }.note (o.logged item)

def goOn (t : Talk) : Talk :=
  match t.call with
  | none => t
  | some (.looking e) =>
    if t.channel.isCancelled then t.finish (.ok e) .refused
    else { t with call := some (.asking (.ok e)) }
  | some (.asking item) =>
    match t.channel.ask with
    | .free => { t with call := some (.putting item) }
    | .full => { t with call := some (.ofItem item) }
    | .closed => t.finish item .refused
  | some (.putting item) => { t with channel := t.channel.put item }.finish item .delivered

/-- A call that has got room does not wait. -/
def giveUp (t : Talk) : Talk :=
  match t.call with
  | some (.looking e) => t.finish (.ok e) .abandoned
  | some (.asking item) => t.finish item .abandoned
  | _ => t

def step (t : Talk) : Move → Talk
  | .send e => if t.sinkFree then { t with call := some (.ofItem (.ok e)) } else t
  | .fail e => if t.sinkFree then { t with call := some (.ofItem (.error e)) } else t
  | .goOn => t.goOn
  | .giveUp => t.giveUp
  | .isCancelled =>
    if t.sinkFree then t.note ⟨.isCancelled, .flag t.channel.isCancelled, false⟩ else t
  | .dropSink =>
    if t.sinkFree then
      { t with channel := t.channel.dropSink }.note ⟨.dropSink, .dropped, false⟩
    else t
  | .next =>
    if t.streamFree then
      let (answer, channel) := t.channel.next
      { t with channel }.note ⟨.next, answer, false⟩
    else t
  | .cancel =>
    if t.streamFree then
      let (first, channel) := t.channel.cancel
      { t with channel }.note ⟨.cancel, .flag first, first⟩
    else t
  | .dropStream =>
    if t.streamFree then
      let (first, channel) := t.channel.cancel
      { t with channel, leaving := true }.note ⟨.dropStream, .dropped, first⟩
    else t
  | .close => if t.leaving then { t with channel := t.channel.close } else t

def run (t : Talk) (moves : List Move) : Talk := moves.foldl step t

end Talk

end Relay
