import Relay.Cafe.Delivery
import Relay.Cafe.Watch
import Relay.Http.Form
import Relay.Http.MediaType
import Relay.Http.Registration
import Relay.Http.Route
import Relay.Json.Writing
import Relay.PeerId
import Relay.Text.Percent

/-!
# Answering requests

`Cafe.answer` is one HTTP request. A relay route is closed to those who do not say who they are,
whatever the method; admin routes want the admin token, which is checked after the body has been
read. Browsers may ask from any origin.
-/

namespace Relay

/-- The line that a watching client gets for a notice. -/
def Notice.line (n : Notice) : String :=
  Json.object [("client", Json.text n.client), ("date", Json.text n.date.text)] ++ "\n"

/-- The answer to the registration of a client. -/
def Client.json (c : Client) : String :=
  Json.object
    [("id", Json.text c.id), ("address", Json.text c.address),
     ("created", Json.text c.created.text)]

namespace Request

/-- The media type of the body. -/
def mediaType? (r : Request) : Option MediaType := do MediaType.parse? (← r.header? "content-type")

/-- What is given as admin token, with or without `Bearer` in front. -/
def token (r : Request) : String :=
  let given := ((r.header? "authorization").getD "").toList
  let scheme := "Bearer ".toList
  String.ofList (if scheme.isPrefixOf given then given.drop scheme.length else given)

end Request

namespace Form

/-- The name of the parts that are stored. -/
def fileName : String := "file"

/-- The data of the parts that are stored. -/
def files (parts : List Part) : List Bytes :=
  (parts.filter fun p => p.name == some fileName).map Part.data

def Ending.result (e : Ending) : Except RequestError Unit :=
  let fault := "Error parsing \x60multipart/form-data\x60 request"
  match e with
  | .complete => .ok ()
  | .broken => .error (.malformedInput s!"Multipart error: {fault}")
  | .cutOff name =>
    if name = some fileName then .error (.malformedInput s!"Failed to read field: {fault}")
    else .error (.malformedInput s!"Multipart error: {fault}")

end Form

namespace Cafe

/-! ### Parts of a request -/

/-- A segment of the path, decoded. -/
def pathText (name segment : String) : Except Answer String :=
  match Text.Percent.decode? segment with
  | some s => .ok s
  | none => .error (.text 400 s!"Invalid URL: Invalid UTF-8 in \x60{name}\x60")

/-- The body, unless it is too long. -/
def bodyOf (c : Cafe) (r : Request) : Except Answer Bytes :=
  if r.body.length ≤ c.config.maxBodySize then .ok r.body
  else .error (.text 413 "Failed to buffer the request body: length limit exceeded")

def registrationOf (c : Cafe) (r : Request) : Except Answer Registration := do
  if !r.mediaType?.any MediaType.isJson then
    throw (.text 415 "Expected request with \x60Content-Type: application/json\x60")
  match Registration.ofBytes (← c.bodyOf r) with
  | .ok registration => return registration
  | .error .malformed => throw (.text 400 "Failed to parse the request body as JSON")
  | .error .wrongShape =>
    throw (.text 422 "Failed to deserialize the JSON body into the target type")

def peerIdOf (s : String) : Except RequestError PeerId :=
  (PeerId.parse s).mapError fun fault => .malformedInput s!"Invalid peer id: {fault.message}"

def contentIdOf (s : String) : Except RequestError ContentId :=
  (ContentId.parse s).mapError fun fault =>
    .malformedInput s!"Invalid content id: {fault.message}"

def envelopeOf (bs : Bytes) : Except RequestError Envelope :=
  (Envelope.ofBytes bs).mapError fun fault => .malformedInput fault.message

def checkToken (c : Cafe) (r : Request) : Except RequestError Unit :=
  match c.config.adminToken with
  | none => .error (.forbidden "Admin API is disabled (no ADMIN_TOKEN configured)")
  | some token => if r.token = token then .ok () else .error (.forbidden "Invalid admin token")

/-! ### Relay routes -/

/-- Stores the files of a form. The body is there as one piece, so that one which is too large is
refused before a part of it is stored; of a body that comes in pieces the parts in front of the
limit would be stored already. -/
def answerPins (r : Request) (c : Cafe) : Answer × Cafe :=
  match r.mediaType?.bind MediaType.formBoundary? with
  | none => (.text 400 "Invalid \x60boundary\x60 for \x60multipart/form-data\x60 request", c)
  | some boundary =>
    if c.config.maxBodySize < r.body.length then (.ofResult 204 Form.Ending.broken.result, c)
    else
      let (parts, ending) := Form.parts boundary r.body
      match c.keepAll (Form.files parts) with
      | (.ok (), c) => (.ofResult 204 ending.result, c)
      | (.error e, c) => (.ofError e, c)

def answerPin (segment : String) (c : Cafe) : Answer × Cafe :=
  match pathText "cid" segment with
  | .error a => (a, c)
  | .ok s =>
    match contentIdOf s with
    | .error e => (.ofError e, c)
    | .ok id =>
      let (result, c) := c.release id
      (.ofResult 204 result, c)

/-- Does what changes a cafe or is refused. -/
def answerChange (change : Except RequestError Cafe) (c : Cafe) : Answer × Cafe :=
  match change with
  | .ok c => (.ofStatus 204, c)
  | .error e => (.ofError e, c)

def answerPutThread (now : Instant) (peer segment : String) (r : Request) (c : Cafe) :
    Answer × Cafe :=
  match (do return (← pathText "id" segment, ← c.bodyOf r)) with
  | .error a => (a, c)
  | .ok (thread, body) => answerChange (c.putThread now peer thread body) c

def answerDropThread (peer segment : String) (c : Cafe) : Answer × Cafe :=
  match pathText "id" segment with
  | .error a => (a, c)
  | .ok thread => answerChange (c.dropThread peer thread) c

/-- Delivers a message. One that is dropped has the answer of one that is queued. -/
def answerInbox (now : Instant) (sender recipient : String) (r : Request) (c : Cafe) :
    Answer × Cafe :=
  let delivery : Except Answer Delivery := do
    let sender ← pathText "from" sender
    let recipient ← pathText "to" recipient
    return { sender, recipient, body := ← c.bodyOf r }
  match delivery with
  | .error a => (a, c)
  | .ok d =>
    let (result, c) := c.deliver now d
    (.ofResult 200 result, c)

/-- Searches for the peer that asks. -/
def answerSearch (peer : String) (r : Request) (c : Cafe) : Answer :=
  match c.bodyOf r with
  | .error a => a
  | .ok body =>
    match (do return (← peerIdOf peer, ← envelopeOf body)) with
    | .error e => .ofError e
    | .ok (peer, query) =>
      let response := c.search peer.text query
      match response.state with
      | .empty => .ofStatus 200
      | .refused e => .ofError e
      | _ =>
        { status := 200, headers := [("content-type", "application/octet-stream")]
          body := .frames response }

def answerWatch (now : Instant) (peer : String) (c : Cafe) : Answer × Cafe :=
  match c.watch now peer with
  | (.error e, c) => (.ofError e, c)
  | (.ok id, c) =>
    ({ status := 200, headers := [("content-type", "application/x-ndjson")]
       body := .notices id }, c)

/-! ### Open and admin routes -/

def answerInfo (c : Cafe) : Answer :=
  .json 200 (Json.object
    [("name", Json.text c.config.instanceName), ("cafe_version", Json.text "v1"),
     ("node_version", Json.text "0.1.0")])

def answerStatus (r : Request) (c : Cafe) : Answer :=
  let counted : Except RequestError Nat := do
    c.checkToken r
    c.clientCount.mapError .ofRecords
  match counted with
  | .error e => .ofError e
  | .ok clients =>
    .json 200 (Json.object
      [("name", Json.text c.config.instanceName), ("clients", toString clients),
       ("watching", toString c.watchers.size), ("uptime_secs", "0")])

/-- Registers a client, once. -/
def register (now : Instant) (r : Registration) (c : Cafe) :
    Except RequestError (Client × Cafe) := do
  let id ← peerIdOf (String.ofList (Text.trim r.id.toList))
  let client : Client := { id := id.text, address := r.address, created := now }
  match c.addClient client with
  | .ok c => return (client, c)
  | .error .alreadyPresent => throw (.conflict s!"Client {client.id} already registered")
  | .error e => throw (.ofRecords e)

def answerClients (now : Instant) (r : Request) (c : Cafe) : Answer × Cafe :=
  match c.registrationOf r with
  | .error a => (a, c)
  | .ok registration =>
    match (do c.checkToken r; c.register now registration) with
    | .ok (client, c) => (.json 201 client.json, c)
    | .error e => (.ofError e, c)

/-! ### All routes -/

/-- Answers a request whose method the route takes, from the given peer. -/
def answerRoute (now : Instant) (route : Route) (peer : String) (r : Request) (c : Cafe) :
    Answer × Cafe :=
  match route with
  | .pins => c.answerPins r
  | .pin id => c.answerPin id
  | .thread id =>
    if r.method = .put then c.answerPutThread now peer id r else c.answerDropThread peer id
  | .inbox sender recipient => c.answerInbox now sender recipient r
  | .watch => c.answerWatch now peer
  | .search => (c.answerSearch peer r, c)
  | .health => (.ofStatus 204, c)
  | .info => (c.answerInfo, c)
  | .status => (c.answerStatus r, c)
  | .clients => c.answerClients now r

/-- Leaves the body out if only the headers are asked for, and with it the subscription it would
have been fed from. -/
def trimBody (r : Request) (answered : Answer × Cafe) : Answer × Cafe :=
  let (a, c) := answered
  if r.method = .head then
    ({ a with body := .bytes [] }, match a.body with | .notices id => c.unsubscribe id | _ => c)
  else (a, c)

/-- Who asks on a route; nobody in particular where that does not matter. -/
def askingPeer (route : Route) (r : Request) : Except RequestError String :=
  if route.needsPeer then
    match r.peer? with
    | some peer => .ok peer
    | none => .error (.unauthorized "Missing x-cafe-peer header")
  else .ok ""

/-- Answers a request on a known path. A method that the route does not take brings a list of
those it does, also to one who does not say who asks. -/
def answerKnown (now : Instant) (route : Route) (r : Request) (c : Cafe) : Answer × Cafe :=
  match askingPeer route r, decide (r.method ∈ route.methods) with
  | .ok peer, true => trimBody r (c.answerRoute now route peer r)
  | .error e, true => trimBody r (.ofError e, c)
  | .ok _, false => ((Answer.ofStatus 405).withHeader "allow" route.allowed, c)
  | .error e, false => ((Answer.ofError e).withHeader "allow" route.allowed, c)

/-- The answer to a browser that asks what it may ask. -/
def preflight (route : Option Route) : Answer :=
  let a : Answer :=
    { status := 200
      headers :=
        [("access-control-allow-methods", "GET,POST,PUT,DELETE,OPTIONS"),
         ("access-control-allow-headers", "*")] }
  match route with
  | some route => a.withHeader "allow" route.allowed
  | none => a

/-- Answers a request at a moment. -/
def answer (now : Instant) (r : Request) (c : Cafe) : Answer × Cafe :=
  let route := Route.ofPath? r.path
  let (a, c) :=
    if r.method = .options then (preflight route, c)
    else
      match route with
      | none => (.ofStatus 404, c)
      | some route => c.answerKnown now route r
  (a.withHeader "access-control-allow-origin" "*", c)

end Cafe

end Relay
