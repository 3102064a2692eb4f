import Relay.Frame
import Relay.RequestError
import Relay.Search.Producer

/-!
# Search responses

The answer to a search streams one frame per result. The first event decides the status: an
error or a result that fits no frame refuses the request before any byte is sent, an end without
results is an empty answer. A later error or oversized result breaks the stream off. Whichever
way it ends, the consumer's end of the channel is dropped, which tells the producer to stop.
-/

namespace Relay

namespace Envelope

/-- The frame of a result. -/
def frame (e : Envelope) : Except RequestError Bytes :=
  (Frame.encode e.toBytes).mapError fun fault => .streamAborted fault.message

end Envelope

inductive ResponseState where
  /-- Waits for the first event. -/
  | opening
  /-- Has decided to stream, the first frame is not written yet. -/
  | holding (first : Bytes)
  | streaming
  | empty
  | refused (e : RequestError)
  | complete
  | aborted (e : RequestError)
  /-- The client has gone. -/
  | hungUp
  deriving DecidableEq

structure Response where
  producer : Producer
  state : ResponseState := .opening
  /-- The frames written so far. -/
  frames : List Bytes := []

namespace Response

def start (buffer : Nat) (script : List Emission) : Response :=
  { producer := .start buffer script }

/-- Ends the response and drops the consumer's end. -/
def close (r : Response) (state : ResponseState) : Response :=
  { r with producer := r.producer.hangUp, state }

def isOpen (r : Response) : Bool :=
  match r.state with
  | .opening | .holding _ | .streaming => true
  | _ => false

def emit (r : Response) (frame : Bytes) : Response :=
  { r with state := .streaming, frames := r.frames ++ [frame] }

/-- One attempt of the writer to go on. -/
def read (r : Response) : Response :=
  match r.state with
  | .opening =>
    let (answer, producer) := r.producer.next
    let r := { r with producer }
    match answer with
    | .item e =>
      match e.frame with
      | .ok first => { r with state := .holding first }
      | .error e => r.close (.refused e)
    | .error e => r.close (.refused (.streamAborted e.message))
    | .done => r.close .empty
    | _ => r
  | .holding first => r.emit first
  | .streaming =>
    let (answer, producer) := r.producer.next
    let r := { r with producer }
    match answer with
    | .item e =>
      match e.frame with
      | .ok frame => r.emit frame
      | .error e => r.close (.aborted e)
    | .error e => r.close (.aborted (.streamAborted e.message))
    | .done => r.close .complete
    | _ => r
  | _ => r

/-- The client goes away. -/
def hangUp (r : Response) : Response := if r.isOpen then r.close .hungUp else r

/-- What can happen to a response: its producer or its writer goes on, or the client goes. -/
inductive Event where
  | produce
  | read
  | hangUp
  deriving DecidableEq

def step (r : Response) : Event → Response
  | .produce => { r with producer := r.producer.step }
  | .read => r.read
  | .hangUp => r.hangUp

def run (r : Response) (events : List Event) : Response := events.foldl step r

def settle (r : Response) : Response := { r with producer := r.producer.settle }

/-- Reads until the response has ended or `most` frames are written, when the client goes. The
producer runs as far ahead as it can before each read. -/
def drive (most : Option Nat) (r : Response) : Nat → Response
  | 0 => r
  | fuel + 1 =>
    let r := r.settle
    if !r.isOpen then r
    else if r.state ≠ .opening ∧ most = some r.frames.length then r.hangUp.settle
    else drive most r.read fuel

/-- The whole response. After the producer has settled a read finds an event, so there are at
most as many reads as emissions, and one each for the start, the first frame and the end. -/
def ofScript (buffer : Nat) (script : List Emission) (most : Option Nat) : Response :=
  drive most (start buffer script) (script.length + 4)

/-- The bytes written so far. -/
def body (r : Response) : Bytes := r.frames.flatten

end Response

end Relay
