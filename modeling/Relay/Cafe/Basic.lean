import Relay.Config.Basic
import Relay.Content.ObjectStore
import Relay.Notify.WatchSink
import Relay.RequestError
import Relay.Search.Index
import Relay.Search.Response

/-!
# The cafe

A cafe keeps content, snapshots and inboxes for its clients, who are offline now and then. Each
function here is one request; what runs beside requests, the notification worker, goes on in
`settle`, `pass` and `shutdown`.
-/

namespace Relay

structure Cafe where
  config : Config := {}
  content : ObjectStore := {}
  records : Records := {}
  /-- Someone broke off while holding the registry of clients. -/
  registryPoisoned : Bool := false
  /-- Someone broke off while holding the snapshots and inboxes. -/
  mailboxPoisoned : Bool := false
  watchers : Watchers := {}
  notifier : Notifier WatchTicket

namespace Cafe

/-- A cafe with nothing in it. -/
def ofConfig (config : Config) : Cafe :=
  { config
    content := { limit := config.maxObjectSize }
    notifier := { capacity := config.notifyQueueCapacity, timeout := config.notifyTimeout } }

/-! ### Access to the records -/

def checkRegistry (c : Cafe) : Except RecordError Unit :=
  if c.registryPoisoned then .error .poisoned else .ok ()

def checkMailbox (c : Cafe) : Except RecordError Unit :=
  if c.mailboxPoisoned then .error .poisoned else .ok ()

def client? (c : Cafe) (id : String) : Except RecordError (Option Client) := do
  c.checkRegistry
  c.records.client? id

def clientCount (c : Cafe) : Except RecordError Nat := do
  c.checkRegistry
  return c.records.clientCount

def addClient (client : Client) (c : Cafe) : Except RecordError Cafe := do
  c.checkRegistry
  return { c with records := ← c.records.addClient client }

def putSnapshot (s : Snapshot) (c : Cafe) : Except RecordError Cafe := do
  c.checkMailbox
  return { c with records := c.records.putSnapshot s }

def dropSnapshot (thread client : String) (c : Cafe) : Except RecordError Cafe := do
  c.checkMailbox
  return { c with records := (c.records.dropSnapshot thread client).2 }

def snapshotsOf (c : Cafe) (client : String) : Except RecordError (List Snapshot) := do
  c.checkMailbox
  c.records.snapshotsOf client

def putMessage (m : Message) (c : Cafe) : Except RecordError Cafe := do
  c.checkMailbox
  return { c with records := c.records.putMessage m }

def messagesOf (c : Cafe) (client : String) : Except RecordError (List Message) := do
  c.checkMailbox
  c.records.messagesOf client

/-! ### Clients and threads -/

/-- The client that asks. -/
def registered (c : Cafe) (id : String) : Except RequestError Client := do
  match ← (c.client? id).mapError .ofRecords with
  | some client => return client
  | none => throw .clientNotFound

/-- The inbox of a client. -/
def inbox (c : Cafe) (client : String) : Except RequestError (List Message) :=
  (c.messagesOf client).mapError .ofRecords

/-- Keeps a client's snapshot of a thread in place of the one before. -/
def putThread (now : Instant) (client thread : String) (ciphertext : Bytes) (c : Cafe) :
    Except RequestError Cafe := do
  let owner ← c.registered client
  let s : Snapshot := { id := thread, client := owner.id, ciphertext, updated := now }
  (c.putSnapshot s).mapError .ofRecords

def dropThread (client thread : String) (c : Cafe) : Except RequestError Cafe := do
  let owner ← c.registered client
  (c.dropSnapshot thread owner.id).mapError .ofRecords

/-! ### Content -/

/-- Does an operation on the content store. -/
def withContent {α : Type} (op : ObjectStore.Op α) (c : Cafe) : Except ObjectError α × Cafe :=
  let (r, content) := op c.content
  (r, { c with content })

/-- Whatever goes wrong in the content store is put down to the request. -/
def ofContent (e : ObjectError) : RequestError := .malformedInput e.message

/-- Stores an object as a node if it is one, and as raw bytes if that fails for any reason. -/
def keep (bytes : Bytes) (c : Cafe) : Except RequestError ContentId × Cafe :=
  match c.withContent (ObjectStore.pinAsNode bytes) with
  | (.ok id, c) => (.ok id, c)
  | (.error _, c) =>
    let (r, c) := c.withContent (ObjectStore.pinAsBytes bytes)
    (r.mapError ofContent, c)

/-- Stores objects in order, up to the first that is refused. -/
def keepAll (c : Cafe) : List Bytes → Except RequestError Unit × Cafe
  | [] => (.ok (), c)
  | bytes :: rest =>
    match c.keep bytes with
    | (.ok _, c) => c.keepAll rest
    | (.error e, c) => (.error e, c)

/-- Removes the pin of an object and says how many pins were removed. -/
def release (id : ContentId) (c : Cafe) : Except RequestError Nat × Cafe :=
  match c.withContent (ObjectStore.status id) with
  | (.error e, c) => (.error (ofContent e), c)
  | (.ok mode, c) =>
    if mode.any PinMode.isPinned then
      let (r, c) := c.withContent (ObjectStore.unpin id)
      ((r.map fun _ => 1).mapError ofContent, c)
    else (.ok 0, c)

/-! ### Search -/

/-- What the index answers a peer. -/
def emissions (c : Cafe) (peer : String) (query : Envelope) : List Emission :=
  Index.emissions query (c.snapshotsOf peer)

/-- What a consumer takes from the index, up to the end or the given number of answers. -/
def index (c : Cafe) (peer : String) (query : Envelope) (most : Option Nat) :
    List Channel.Answer :=
  let script := c.emissions peer query
  (Producer.start c.config.queryBuffer script).events (most.getD (script.length + 1))

/-- The response to a query, written to its end. -/
def search (c : Cafe) (peer : String) (query : Envelope) : Response :=
  .ofScript c.config.queryBuffer (c.emissions peer query) none

/-! ### Watch connections -/

def subscribe (client : String) (c : Cafe) : SubscriptionId × Cafe :=
  let (id, watchers) := c.watchers.subscribe client
  (id, { c with watchers })

def unsubscribe (id : SubscriptionId) (c : Cafe) : Cafe :=
  { c with watchers := c.watchers.unsubscribe id }

def push (id : SubscriptionId) (notice : Notice) (c : Cafe) : Cafe :=
  { c with watchers := c.watchers.push id notice }

/-- The next notice of a subscription; nothing if it was dropped. -/
def receive (id : SubscriptionId) (c : Cafe) : Option (Watchers.Received × Cafe) :=
  (c.watchers.receive id).map fun (r, watchers) => (r, { c with watchers })

/-! ### The notification worker -/

def submit (client : String) (c : Cafe) : Cafe :=
  { c with notifier := (c.notifier.submit client).2 }

def afterTurn (c : Cafe) (turn : Turn Watchers WatchTicket) : Cafe :=
  { c with notifier := turn.notifier, watchers := turn.state }

/-- Lets the worker go on until it has to wait. -/
def settle (now : Instant) (c : Cafe) : Cafe :=
  c.afterTurn (c.notifier.settle (Watchers.sink now) c.watchers)

/-- Lets a time in milliseconds pass for the worker. -/
def pass (now : Instant) (duration : Nat) (c : Cafe) : Cafe :=
  c.afterTurn (c.notifier.advance (Watchers.sink now) duration c.watchers)

/-- Stops the worker when its queue is empty, and says how many attempts it has made. -/
def shutdown (now : Instant) (c : Cafe) : Nat × Cafe :=
  let turn := c.notifier.drain (Watchers.sink now) c.watchers
  (turn.notifier.total, c.afterTurn turn)

end Cafe

end Relay
