import Relay.Wire.Envelope

/-!
# Query channels

A query is answered through a channel of bounded size. Its producer end, the sink, sends
results and may fail once; its consumer end, the stream, takes them in order and can tell the
producer to stop. The stop signal is given once: by `cancel`, or when the stream is dropped.

A send looks at the signal, asks for room and puts its result there. The ends are on different
threads, and `Talk` lets the other one act between these moves. `step` does one attempt of an
operation with nothing in between. An attempt that finds no room or nothing to take answers
`pending` and has no effect, but that a sink which cannot fail at once is gone.
-/

namespace Relay

/-- Why a query has no answer. -/
inductive QueryError where
  | invalid (reason : String)
  | index (reason : String)
  deriving DecidableEq

def QueryError.message : QueryError → String
  | .invalid reason => s!"Invalid query: {reason}"
  | .index reason => s!"Index error: {reason}"

structure Channel where
  capacity : Nat
  queue : List (Except QueryError Envelope) := []
  /-- The producer has been told to stop. -/
  signalled : Bool := false
  /-- The consumer has used up its signal, whether there was a producer to be told or not. -/
  spent : Bool := false
  sinkOpen : Bool := true
  streamOpen : Bool := true

namespace Channel

/-- A channel has room for one element at least. -/
def ofBuffer (buffer : Nat) : Channel := { capacity := max 1 buffer }

def hasRoom (c : Channel) : Bool := c.queue.length < c.capacity

def push (c : Channel) (item : Except QueryError Envelope) : Channel :=
  { c with queue := c.queue ++ [item] }

def isCancelled (c : Channel) : Bool := c.signalled || !c.streamOpen

inductive Answer where
  | sent
  | pending
  | cancelled
  | failed
  | flag (value : Bool)
  | dropped
  | item (e : Envelope)
  | error (e : QueryError)
  | done
  /-- The end that was to act no longer exists. -/
  | gone

inductive Event where
  | send (e : Envelope)
  | fail (e : QueryError)
  | isCancelled
  | dropSink
  | next
  | cancel
  | dropStream

/-! ### The producer's end -/

/-- What a producer hears that asks for room. -/
inductive Room where
  | free
  | full
  /-- The stream is gone. -/
  | closed
  deriving DecidableEq

def ask (c : Channel) : Room :=
  if !c.streamOpen then .closed else if c.hasRoom then .free else .full

/-- Fills room that was free. If the stream has gone in the meantime, the item is lost. -/
def put (c : Channel) (item : Except QueryError Envelope) : Channel :=
  if c.streamOpen then c.push item else c

/-- Sends a result. A producer that was told to stop is refused, room or not. -/
def send (c : Channel) (e : Envelope) : Answer × Channel :=
  if c.isCancelled then (.cancelled, c)
  else
    match c.ask with
    | .free => (.sent, c.put (.ok e))
    | .full => (.pending, c)
    | .closed => (.cancelled, c)

def dropSink (c : Channel) : Channel := { c with sinkOpen := false }

/-- Ends with an error, behind the results already sent. Nobody is there to be told when the
stream is gone. -/
def fail (c : Channel) (e : QueryError) : Answer × Channel :=
  match c.ask with
  | .free => (.failed, (c.put (.error e)).dropSink)
  | .full => (.pending, c)
  | .closed => (.failed, c.dropSink)

theorem send_eq (c : Channel) (e : Envelope) :
    c.send e =
      if c.isCancelled then (.cancelled, c)
      else if c.hasRoom then (.sent, c.push (.ok e)) else (.pending, c) := by
  rw [send, ask, put, isCancelled]
  cases c.signalled <;> cases c.streamOpen <;> cases c.hasRoom <;> rfl

theorem fail_eq (c : Channel) (e : QueryError) :
    c.fail e =
      if !c.streamOpen then (.failed, c.dropSink)
      else if c.hasRoom then (.failed, (c.push (.error e)).dropSink) else (.pending, c) := by
  rw [fail, ask, put]
  cases c.streamOpen <;> cases c.hasRoom <;> rfl

/-! ### The consumer's end -/

def next (c : Channel) : Answer × Channel :=
  match c.queue with
  | .ok e :: rest => (.item e, { c with queue := rest })
  | .error e :: rest => (.error e, { c with queue := rest })
  | [] => (if c.sinkOpen then .pending else .done, c)

/-- Tells a producer that is there to stop, and says whether it is the first time. -/
def cancel (c : Channel) : Bool × Channel :=
  (!c.spent, { c with spent := true, signalled := c.signalled || !c.spent && c.sinkOpen })

/-- Gives up all that was not taken. -/
def close (c : Channel) : Channel := { c with queue := [], streamOpen := false }

/-- Drops the stream, which cancels first. -/
def dropStream (c : Channel) : Channel := c.cancel.2.close

/-! ### Both ends -/

/-- One attempt of an operation of either end. -/
def step (c : Channel) : Event → Answer × Channel
  | .send e => if c.sinkOpen then c.send e else (.gone, c)
  | .fail e =>
    if c.sinkOpen then
      let (answer, c) := c.fail e
      (answer, c.dropSink)
    else (.gone, c)
  | .isCancelled => if c.sinkOpen then (.flag c.isCancelled, c) else (.gone, c)
  | .dropSink => if c.sinkOpen then (.dropped, c.dropSink) else (.gone, c)
  | .next => if c.streamOpen then c.next else (.gone, c)
  | .cancel =>
    if c.streamOpen then
      let (first, c) := c.cancel
      (.flag first, c)
    else (.gone, c)
  | .dropStream => if c.streamOpen then (.dropped, c.dropStream) else (.gone, c)

/-- The answers to a run of events, and the channel after them. -/
def run (c : Channel) : List Event → List Answer × Channel
  | [] => ([], c)
  | event :: rest =>
    let (answer, c) := c.step event
    let (answers, c) := c.run rest
    (answer :: answers, c)

end Channel

end Relay
