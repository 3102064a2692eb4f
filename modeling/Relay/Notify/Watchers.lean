import Relay.Instant.Basic
import Relay.Table

/-!
# Watch connections

A client that watches its inbox holds a subscription. The newest one of a client has its slot;
an older one gets nothing new, yields what it has and then ends. A connection buffers up to
sixteen notices. A notification is sent in steps: it looks up the current connection of the
client, then sends to that connection, waiting while it is full. Room that a reader makes is kept
for the first send that waits, but its notice comes in only when that send does its next step:
what is sent in between may come in before it.
-/

namespace Relay

/-- What a watching client is told. -/
structure Notice where
  client : String
  date : Instant
  deriving DecidableEq

inductive NotifyError where
  | notConnected (client : String)
  | closed (client : String)
  deriving DecidableEq

def NotifyError.message : NotifyError → String
  | .notConnected client => s!"Client {client} has no open connection"
  | .closed client => s!"Connection to client {client} closed"

/-- The subscriptions in the order in which they were made. -/
abbrev SubscriptionId := Nat

abbrev SendId := Nat

inductive SendState where
  /-- Has its connection and is not yet tried. -/
  | held
  /-- Was tried and found no room. -/
  | waiting
  | sent
  /-- The connection was dropped before there was room. -/
  | closed
  deriving DecidableEq

structure Send where
  subscription : SubscriptionId
  notice : Notice
  state : SendState := .held

structure Connection where
  client : String
  buffer : List Notice := []
  /-- The sends that wait for room, in order. -/
  waiting : List SendId := []
  /-- The sends that room is kept for. -/
  granted : List SendId := []

namespace Connection

/-- The most notices a connection buffers. -/
def size : Nat := 16

/-- There is room that is kept for no one. -/
def hasRoom (c : Connection) : Bool := decide (c.buffer.length + c.granted.length < size)

/-- The sends that are not done with the connection: first those that have room. -/
def line (c : Connection) : List SendId := c.granted ++ c.waiting

/-- Keeps room that has become free for the first send that waits. -/
def grant (c : Connection) : Connection :=
  match c.waiting with
  | [] => c
  | send :: rest => { c with waiting := rest, granted := c.granted ++ [send] }

/-- Without a send. Room that was kept for it goes to the next one that waits. -/
def withdraw (c : Connection) (send : SendId) : Connection :=
  let rest := { c with
    waiting := c.waiting.filter (· ≠ send)
    granted := c.granted.filter (· ≠ send) }
  if send ∈ c.granted then rest.grant else rest

end Connection

structure Watchers where
  /-- The subscription that is current for a client. -/
  slots : Table String SubscriptionId := ∅
  /-- The connections of all subscriptions that are not dropped. -/
  connections : Table SubscriptionId Connection := ∅
  sends : Table SendId Send := ∅
  nextSubscription : SubscriptionId := 0
  nextSend : SendId := 0

namespace Watchers

/-- How many clients have a watcher. -/
def size (r : Watchers) : Nat := r.slots.size

/-- The slot of a client has this connection. -/
def isCurrent (r : Watchers) (client : String) (id : SubscriptionId) : Bool :=
  r.slots.get? client == some id

/-- What a subscription knows its slot by: subscriptions are counted in 64 bits, and the count
wraps. -/
def number (id : SubscriptionId) : UInt64 := .ofNat id

/-- The connection in the slot of a client, if the slot has the number of a subscription. -/
def numbered? (r : Watchers) (client : String) (id : SubscriptionId) : Option SubscriptionId :=
  (r.slots.get? client).filter fun current => number current == number id

/-! ### Subscriptions -/

/-- Makes a new subscription the current one of a client. -/
def subscribe (r : Watchers) (client : String) : SubscriptionId × Watchers :=
  let id := r.nextSubscription
  (id, { r with
    slots := r.slots.put client id
    connections := r.connections.put id { client }
    nextSubscription := id + 1 })

/-- Puts a notice on a connection, unless it is full. -/
def offer (r : Watchers) (id : SubscriptionId) (notice : Notice) : Watchers :=
  match r.connections.get? id with
  | none => r
  | some c =>
    if c.hasRoom then
      { r with connections := r.connections.put id { c with buffer := c.buffer ++ [notice] } }
    else r

/-- Puts a notice on the connection of a subscription, unless that is no longer the current one or
is full. -/
def push (r : Watchers) (id : SubscriptionId) (notice : Notice) : Watchers :=
  match (r.connections.get? id).bind fun c => r.numbered? c.client id with
  | none => r
  | some current => r.offer current notice

def setState (r : Watchers) (send : SendId) (state : SendState) : Watchers :=
  match r.sends.get? send with
  | none => r
  | some s => { r with sends := r.sends.put send { s with state } }

inductive Received where
  | notice (n : Notice)
  | pending
  /-- Nothing is left and nothing can come. -/
  | ended
  deriving DecidableEq

/-- A send that has this connection and may still deliver to it. -/
def inFlight (r : Watchers) (id : SubscriptionId) : Bool :=
  r.sends.values.any fun s => s.subscription == id && (s.state == .held || s.state == .waiting)

/-- Takes the next notice of a subscription; nothing if it was dropped. -/
def receive (r : Watchers) (id : SubscriptionId) : Option (Received × Watchers) :=
  (r.connections.get? id).map fun c =>
    match c.buffer with
    | n :: rest =>
      (.notice n,
        { r with connections := r.connections.put id { c with buffer := rest }.grant })
    | [] => (if r.isCurrent c.client id ∨ r.inFlight id then .pending else .ended, r)

/-- Drops a subscription. Its client has no watcher then, unless a newer one took its place, and
the sends that wait for it fail. -/
def unsubscribe (r : Watchers) (id : SubscriptionId) : Watchers :=
  match r.connections.get? id with
  | none => r
  | some c =>
    let slots :=
      if (r.numbered? c.client id).isSome then r.slots.erase c.client else r.slots
    c.line.foldl (·.setState · .closed)
      { r with slots, connections := r.connections.erase id }

/-! ### Notifications -/

/-- Looks up the current connection of a client for a notice of the given date. -/
def lookUp (r : Watchers) (client : String) (date : Instant) : Option (SendId × Watchers) :=
  (r.slots.get? client).map fun subscription =>
    let id := r.nextSend
    (id, { r with
      sends := r.sends.put id { subscription, notice := { client, date } }
      nextSend := id + 1 })

/-- Puts the notice of a send on its connection. -/
def bring (r : Watchers) (id : SendId) (s : Send) (c : Connection) : Watchers :=
  { r with
    connections := r.connections.put s.subscription { c with buffer := c.buffer ++ [s.notice] }
  }.setState id .sent

/-- A step of a send. One that is not tried yet is buffered, waits for room, or finds the connection
dropped; one that waits is buffered if room is kept for it. -/
def attempt (r : Watchers) (id : SendId) : Watchers :=
  match r.sends.get? id with
  | none => r
  | some s =>
    match s.state, r.connections.get? s.subscription with
    | .held, none => r.setState id .closed
    | .held, some c =>
      if c.hasRoom then r.bring id s c
      else
        { r with
          connections := r.connections.put s.subscription { c with waiting := c.waiting ++ [id] }
        }.setState id .waiting
    | .waiting, some c =>
      if id ∈ c.granted then r.bring id s { c with granted := c.granted.filter (· ≠ id) } else r
    | _, _ => r

/-- How a send ended; nothing while it has not. -/
def result? (r : Watchers) (id : SendId) : Option (Except NotifyError Unit) :=
  match r.sends.get? id with
  | some { state := .sent, .. } => some (.ok ())
  | some { state := .closed, notice, .. } => some (.error (.closed notice.client))
  | _ => none

/-- Forgets a send. One that waits is given up. -/
def forget (r : Watchers) (id : SendId) : Watchers :=
  match r.sends.get? id with
  | none => r
  | some s =>
    let r := { r with sends := r.sends.erase id }
    match r.connections.get? s.subscription with
    | none => r
    | some c => { r with connections := r.connections.put s.subscription (c.withdraw id) }

end Watchers

end Relay
