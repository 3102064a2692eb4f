import Relay.Proofs.Cafe.Views
import Relay.Proofs.Http.Recipients

/-!
# What a request sees of one peer's threads

A request is a peer's own if it stores or drops a thread or searches as that peer, or registers
it. Any other leaves alone what the peer's threads depend on (`sees_answer`), and has an answer
that does not depend on the peer's snapshots unless it is a thread request or a search of the
peer (`blind_answer`). An own request depends on nothing else (`agrees_answer`).
-/

namespace Relay

open ObjectStore (Op)

/-- The client that a request would register. -/
def Cafe.clientOf (now : Instant) (r : Request) (c : Cafe) : Except Answer Client := do
  let registration ← c.registrationOf r
  let id ← (do c.checkToken r; peerIdOf (String.ofList (Text.trim registration.id.toList))).mapError
    Answer.ofError
  return { id := id.text, address := registration.address, created := now }

namespace Request

def writesAs (p : String) (r : Request) : Bool :=
  match Route.ofPath? r.path with
  | some (.thread id) => decide (r.method ∈ (Route.thread id).methods) && r.peer? == some p
  | _ => false

/-- A search as the peer, whichever way its id is written. -/
def searchesAs (p : String) (r : Request) : Bool :=
  match Route.ofPath? r.path with
  | some .search =>
    decide (r.method ∈ Route.search.methods) &&
      r.peer?.any fun text => (PeerId.parse text).toOption.any fun id => id.text == p
  | _ => false

/-- A request that is fit to register the peer. -/
def registersAs (p : String) (config : Config) (now : Instant) (r : Request) : Bool :=
  match Route.ofPath? r.path with
  | some .clients => decide (r.method ∈ Route.clients.methods) &&
      ((Cafe.ofConfig config).clientOf now r).toOption.any fun client => client.id == p
  | _ => false

/-- A request on which the peer's threads depend. -/
def isOwn (p : String) (config : Config) (now : Instant) (r : Request) : Bool :=
  r.writesAs p || r.searchesAs p || r.registersAs p config now

end Request

inductive Write where
  | put (s : Snapshot)
  | drop (client thread : String)

namespace Write

def client : Write → String
  | put s => s.client
  | drop client _ => client

def op : Write → Cafe → Except RecordError Cafe
  | put s => Cafe.putSnapshot s
  | drop client thread => Cafe.dropSnapshot thread client

def answer : Except RecordError Unit → Answer
  | .ok _ => .ofStatus 204
  | .error e => .ofError (.ofRecords e)

end Write

namespace Cafe

variable {p : String} {c c' : Cafe} {r : Request} {now : Instant}

/-! ### Requests in two parts -/

/-- The first part of a thread request. -/
def look (now : Instant) (peer segment : String) (r : Request) (c : Cafe) : Except Answer Write :=
  let asked : Except Answer (String × Bytes) :=
    if r.method = .put then do return (← pathText "id" segment, ← c.bodyOf r)
    else do return (← pathText "id" segment, [])
  match asked, c.registered peer with
  | .error a, _ => .error a
  | .ok _, .error e => .error (.ofError e)
  | .ok (thread, ciphertext), .ok owner =>
    .ok (if r.method = .put then
      .put { id := thread, client := owner.id, ciphertext, updated := now }
    else .drop owner.id thread)

/-- The second part. -/
def finish (w : Write) (c : Cafe) : Answer × Cafe :=
  (Write.answer (attempt w.op c).1, (attempt w.op c).2)

theorem answerRoute_thread (now : Instant) (segment peer : String) (r : Request) (c : Cafe) :
    c.answerRoute now (.thread segment) peer r =
      match c.look now peer segment r with
      | .error a => (a, c)
      | .ok w => c.finish w := by
  have changed : ∀ op : Cafe → Except RecordError Cafe,
      answerChange ((op c).mapError .ofRecords) c =
        (Write.answer (attempt op c).1, (attempt op c).2) := by
    intro op
    unfold answerChange attempt
    cases op c <;> rfl
  by_cases put : r.method = .put
  · rw [answerRoute, if_pos put, answerPutThread, look, if_pos put]
    cases (do return (← pathText "id" segment, ← c.bodyOf r) : Except Answer (String × Bytes)) with
    | error a => rfl
    | ok asked =>
      dsimp only
      rw [putThread]
      cases c.registered peer with
      | error e => rfl
      | ok owner =>
        simp only [put, if_true]
        exact changed (Write.put _).op
  · rw [answerRoute, if_neg put, answerDropThread, look, if_neg put]
    cases pathText "id" segment with
    | error a => rfl
    | ok thread =>
      dsimp only [bind, Except.bind, pure, Except.pure]
      rw [dropThread]
      cases c.registered peer with
      | error e => rfl
      | ok owner =>
        simp only [put, if_false]
        exact changed (Write.drop _ _).op

def registrationAnswer (client : Client) : Except RecordError Unit → Answer
  | .ok _ => .json 201 client.json
  | .error .alreadyPresent => .ofError (.conflict s!"Client {client.id} already registered")
  | .error e => .ofError (.ofRecords e)

theorem answerClients_eq (now : Instant) (r : Request) (c : Cafe) :
    c.answerClients now r =
      match c.clientOf now r with
      | .error a => (a, c)
      | .ok client => (registrationAnswer client (attempt (addClient client) c).1,
          (attempt (addClient client) c).2) := by
  rw [answerClients, clientOf]
  cases c.registrationOf r with
  | error a => rfl
  | ok registration =>
    dsimp only [bind, Except.bind]
    cases c.checkToken r with
    | error e => rfl
    | ok ok =>
      dsimp only [register, bind, Except.bind]
      cases peerIdOf (String.ofList (Text.trim registration.id.toList)) with
      | error e => rfl
      | ok id =>
        dsimp only [Except.mapError, pure, Except.pure, attempt]
        cases addClient _ c with
        | ok c' => rfl
        | error e => cases e <;> rfl

/-! ### Requests that have nothing to do with the peer's threads -/

theorem aside_keep (bytes : Bytes) : Aside p (keep bytes) := by
  have raw : Aside p fun c => ((c.withContent (ObjectStore.pinAsBytes bytes)).1.mapError ofContent,
      (c.withContent (ObjectStore.pinAsBytes bytes)).2) :=
    (aside_withContent _).map (Except.mapError ofContent) fun _ => rfl
  refine (aside_withContent (ObjectStore.pinAsNode bytes)).goesOn (fun id => Aside.pure (.ok id))
    (fun _ => raw) ?_ ?_
  all_goals
    intro c r c' ran
    simp only [keep, ran]

theorem aside_keepAll (files : List Bytes) : Aside p fun c => c.keepAll files := by
  induction files with
  | nil => exact Aside.pure _
  | cons bytes files ih =>
    refine (aside_keep bytes).goesOn (fun _ => ih) (fun e => Aside.pure (.error e)) ?_ ?_
    all_goals
      intro c r c' ran
      simp only [keepAll, ran]

theorem aside_release (id : ContentId) : Aside p (release id) := by
  have unpins : Aside p fun c => (((c.withContent (ObjectStore.unpin id)).1.map fun _ => 1).mapError
      ofContent, (c.withContent (ObjectStore.unpin id)).2) :=
    (aside_withContent _).map (fun r => (r.map fun _ => 1).mapError ofContent) fun _ => rfl
  have next : ∀ mode : Option PinMode, Aside p fun c => if mode.any PinMode.isPinned then
      (((c.withContent (ObjectStore.unpin id)).1.map fun _ => 1).mapError ofContent,
        (c.withContent (ObjectStore.unpin id)).2) else (.ok 0, c) := by
    intro mode
    split
    · exact unpins
    · exact Aside.pure _
  refine (aside_withContent (ObjectStore.status id)).goesOn next
    (fun e => Aside.pure (.error (ofContent e))) ?_ ?_
  all_goals
    intro c r c' ran
    simp only [release, ran]

def formAnswer (ending : Form.Ending) : Except RequestError Unit → Answer
  | .ok _ => .ofResult 204 ending.result
  | .error e => .ofError e

/-- Stores the files of a form, given the size that a body may have. -/
def storeForm (form : List Form.Part × Form.Ending) (r : Request) (most : Nat) (c : Cafe) :
    Answer × Cafe :=
  if most < r.body.length then (.ofResult 204 Form.Ending.broken.result, c)
  else (formAnswer form.2 (c.keepAll (Form.files form.1)).1, (c.keepAll (Form.files form.1)).2)

theorem aside_storeForm (form : List Form.Part × Form.Ending) (r : Request) (most : Nat) :
    Aside p (storeForm form r most) := by
  unfold storeForm
  split
  · exact Aside.pure _
  · exact (aside_keepAll _).map (formAnswer _) fun _ => rfl

theorem aside_answerPins (r : Request) : Aside p (answerPins r) := by
  unfold answerPins
  cases r.mediaType?.bind MediaType.formBoundary? with
  | none => exact Aside.pure _
  | some boundary =>
    let form := Form.parts boundary r.body
    refine (Aside.reads (fun c => c.config.maxBodySize) (storeForm form r) (fun _ _ => rfl)
      (aside_storeForm form r)).congr fun c => ?_
    unfold storeForm
    dsimp only
    split
    · rfl
    · cases c.keepAll (Form.files form.1) with
      | mk result c => cases result <;> rfl

theorem aside_answerPin (segment : String) : Aside p (answerPin segment) := by
  unfold answerPin
  cases pathText "cid" segment with
  | error a => exact Aside.pure _
  | ok s =>
    dsimp only
    cases contentIdOf s with
    | error e => exact Aside.pure _
    | ok id => exact (aside_release id).map (.ofResult 204) fun _ => rfl

theorem aside_answerInbox (now : Instant) (sender recipient : String) (r : Request) :
    Aside p (answerInbox now sender recipient r) := by
  have read : Aside p fun c : Cafe => ((do
      let sender ← pathText "from" sender
      let recipient ← pathText "to" recipient
      return { sender, recipient, body := ← c.bodyOf r } : Except Answer Delivery), c) :=
    aside_of_still (fun _ => rfl) fun _ _ => rfl
  have delivers : ∀ d, Aside p fun c =>
      (Answer.ofResult 200 (c.deliver now d).1, (c.deliver now d).2) :=
    fun d => (d.aside_run now .lookUp).map (.ofResult 200) fun _ => rfl
  refine read.goesOn delivers Aside.pure ?_ ?_
  all_goals
    intro c d c' ran
    obtain ⟨same, rfl⟩ := Prod.mk.inj ran
    rw [answerInbox]
    simp only [same]

theorem aside_answerWatch (now : Instant) (peer : String) : Aside p (answerWatch now peer) := by
  refine (Watch.aside_run peer now .check).goesOn
    (fun id => Aside.pure { status := 200, headers := [("content-type", "application/x-ndjson")]
                            body := .notices id })
    (fun e => Aside.pure (.ofError e)) ?_ ?_
  all_goals
    intro c r c' ran
    rw [answerWatch, watch, ran]

theorem aside_trimBody (r : Request) (a : Answer) : Aside p fun c => trimBody r (a, c) := by
  unfold trimBody
  dsimp only
  split
  · refine aside_of_elsewhere (fun c t => ?_) fun c => ?_
    all_goals
      cases a.body with
      | notices id => first | rfl | exact ⟨_, _, _, _, rfl⟩
      | _ => first | rfl | exact ⟨_, _, _, _, rfl⟩
  · exact Aside.pure _

/-! ### Requests about threads -/

theorem clientOf_congr (config : c'.config = c.config) (now : Instant) (r : Request) :
    c'.clientOf now r = c.clientOf now r := by
  simp only [clientOf, registrationOf, bodyOf, checkToken, config]

theorem look_congr {peer : String} (config : c'.config = c.config)
    (client : c'.registered peer = c.registered peer) (now : Instant) (segment : String)
    (r : Request) : c'.look now peer segment r = c.look now peer segment r := by
  simp only [look, bodyOf, config, client]

theorem answerSearch_congr {peer : String} (config : c'.config = c.config)
    (listing : ∀ id, PeerId.parse peer = .ok id → c'.snapshotsOf id.text = c.snapshotsOf id.text)
    (r : Request) : c'.answerSearch peer r = c.answerSearch peer r := by
  have body : c'.bodyOf r = c.bodyOf r := by rw [bodyOf, bodyOf, config]
  rw [answerSearch, answerSearch, body]
  cases c.bodyOf r with
  | error a => rfl
  | ok body =>
    dsimp only
    cases asks : PeerId.parse peer with
    | error e =>
      rw [peerIdOf, asks]
      rfl
    | ok id =>
      rw [peerIdOf, asks]
      cases envelopeOf body with
      | error e => rfl
      | ok query =>
        dsimp only [bind, Except.bind, pure, Except.pure, Except.mapError]
        rw [search, search, emissions, emissions, listing id asks, config]

theorem client_of_look {peer segment : String} {w : Write}
    (found : c.look now peer segment r = .ok w) : w.client = peer := by
  unfold look at found
  dsimp only at found
  split at found
  · cases found
  · cases found
  · next owner registered =>
    rw [← id_of_registered registered]
    cases found
    split <;> rfl

theorem blind_finish (w : Write) : Blind p (finish w) := by
  have op : Blind p (attempt w.op) := by
    cases w with
    | put s => exact blind_putSnapshot s
    | drop client thread => exact blind_dropSnapshot thread client
  intro c c' masks
  obtain ⟨same, after⟩ := op masks
  exact ⟨congrArg Write.answer same, after⟩

theorem sees_finish {w : Write} (other : w.client ≠ p) (c : Cafe) : Sees p c (c.finish w).2 := by
  cases w with
  | put s => exact (aside_putSnapshot other).sees c
  | drop client thread => exact (aside_dropSnapshot other).sees c

/-! ### Routes -/

variable {route : Route} {peer : String}

theorem aside_answerRoute (threads : ∀ id, route ≠ .thread id) (search : route ≠ .search)
    (clients : route ≠ .clients) (now : Instant) (peer : String) (r : Request) :
    Aside p fun c => c.answerRoute now route peer r := by
  cases route with
  | pins => exact aside_answerPins r
  | pin id => exact aside_answerPin id
  | inbox sender recipient => exact aside_answerInbox now sender recipient r
  | watch => exact aside_answerWatch now peer
  | health => exact Aside.pure _
  | info => exact aside_of_still (fun _ => rfl) fun _ _ => rfl
  | status => exact aside_of_still (fun _ => rfl) fun _ _ => rfl
  | thread id => exact absurd rfl (threads id)
  | search => exact absurd rfl search
  | clients => exact absurd rfl clients

theorem trimBody_ofError (r : Request) (e : RequestError) (c : Cafe) :
    trimBody r (.ofError e, c) = ((trimBody r (.ofError e, .ofConfig {})).1, c) := by
  unfold trimBody Answer.ofError
  dsimp only
  split
  · split <;> rfl
  · rfl

theorem answer_thread {id : String} (known : Route.ofPath? r.path = some (.thread id))
    (taken : r.method ∈ (Route.thread id).methods) (given : r.peer? = some p) (now : Instant)
    (c : Cafe) :
    c.answer now r = match c.look now p id r with
      | .error a => (a.anyOrigin, c)
      | .ok w => ((c.finish w).1.anyOrigin, (c.finish w).2) := by
  have method : r.method ≠ .options ∧ r.method ≠ .head := by
    simp only [Route.methods, List.mem_cons, List.not_mem_nil, or_false] at taken
    obtain here | here := taken <;> rw [here] <;> decide
  have asking : askingPeer (.thread id) r = .ok p := by
    rw [askingPeer, if_pos (show (Route.thread id).needsPeer = true from rfl), given]
  have goes : c.answerKnown now (.thread id) r = c.answerRoute now (.thread id) p r := by
    rw [answerKnown, asking, decide_eq_true taken]
    exact if_neg method.2
  rw [answer, if_neg method.1, known]
  dsimp only
  rw [goes, answerRoute_thread]
  cases c.look now p id r <;> rfl

/-- Every answer is always the same one, or comes from a route. -/
theorem answer_cases (now : Instant) (r : Request) :
    (∃ a, ∀ c : Cafe, c.answer now r = (a, c)) ∨
      ∃ route peer, Route.ofPath? r.path = some route ∧ r.method ∈ route.methods ∧
        askingPeer route r = .ok peer ∧ ∀ c : Cafe, c.answer now r =
          ((trimBody r (c.answerRoute now route peer r)).1.anyOrigin,
            (trimBody r (c.answerRoute now route peer r)).2) := by
  by_cases options : r.method = .options
  · exact .inl ⟨_, fun c => by rw [answer, if_pos options]⟩
  cases known : Route.ofPath? r.path with
  | none => exact .inl ⟨_, fun c => by rw [answer, if_neg options, known]⟩
  | some route =>
    have goes : ∀ c : Cafe, c.answer now r =
        ((c.answerKnown now route r).1.anyOrigin, (c.answerKnown now route r).2) := by
      intro c
      rw [answer, if_neg options, known]
      rfl
    by_cases taken : r.method ∈ route.methods
    · cases asking : askingPeer route r with
      | ok peer =>
        refine .inr ⟨route, peer, rfl, taken, asking, fun c => ?_⟩
        rw [goes, answerKnown, asking, decide_eq_true taken]
      | error e =>
        refine .inl ⟨(trimBody r (.ofError e, .ofConfig {})).1.anyOrigin, fun c => ?_⟩
        rw [goes, answerKnown, asking, decide_eq_true taken]
        dsimp only
        rw [trimBody_ofError]
    · cases asking : askingPeer route r with
      | ok peer =>
        refine .inl ⟨((Answer.ofStatus 405).withHeader "allow" route.allowed).anyOrigin,
          fun c => ?_⟩
        rw [goes, answerKnown, asking, decide_eq_false taken]
      | error e =>
        refine .inl ⟨((Answer.ofError e).withHeader "allow" route.allowed).anyOrigin, fun c => ?_⟩
        rw [goes, answerKnown, asking, decide_eq_false taken]

/-! ### Requests of one peer and of others -/

/-- The same result, and the peer sees the same after it. -/
def Agrees {α : Type} (p : String) (a a' : α × Cafe) : Prop := a'.1 = a.1 ∧ Sees p a.2 a'.2

theorem Sees.registered (h : Sees p c c') : c'.registered p = c.registered p := by
  simp only [Cafe.registered, client?, checkRegistry, Records.client?, h.registry, h.client]

theorem Sees.snapshotsOf (h : Sees p c c') : c'.snapshotsOf p = c.snapshotsOf p := by
  rw [Cafe.snapshotsOf, Cafe.snapshotsOf, checkMailbox, checkMailbox, h.mailbox,
    Records.snapshotsOf_congr h.rows]

theorem agrees_finish {w : Write} (own : w.client = p) (h : Sees p c c') :
    Agrees p (c.finish w) (c'.finish w) := by
  have checked : c'.checkMailbox = c.checkMailbox := by rw [checkMailbox, checkMailbox, h.mailbox]
  cases w with
  | put s =>
    simp only [finish, Write.op, attempt, putSnapshot, checked]
    cases c.checkMailbox with
    | error e => exact ⟨rfl, h⟩
    | ok ok =>
      refine ⟨rfl, h.config, h.registry, h.mailbox, h.client, ?_⟩
      change (c'.records.putSnapshot s).ownRows p = (c.records.putSnapshot s).ownRows p
      rw [Records.ownRows_putSnapshot, Records.ownRows_putSnapshot, h.rows]
  | drop client thread =>
    simp only [finish, Write.op, attempt, dropSnapshot, checked]
    cases c.checkMailbox with
    | error e => exact ⟨rfl, h⟩
    | ok ok =>
      refine ⟨rfl, h.config, h.registry, h.mailbox, h.client, ?_⟩
      change (c'.records.dropSnapshot thread client).2.ownRows p =
        (c.records.dropSnapshot thread client).2.ownRows p
      rw [Records.ownRows_dropSnapshot, Records.ownRows_dropSnapshot, h.rows]

theorem agrees_addClient {client : Client} (own : client.id = p) (h : Sees p c c') :
    Agrees p (attempt (addClient client) c) (attempt (addClient client) c') := by
  have checked : c'.checkRegistry = c.checkRegistry := by
    rw [checkRegistry, checkRegistry, h.registry]
  have known : c'.records.clients.contains client.id = c.records.clients.contains client.id := by
    rw [own, Table.contains, Table.contains, h.client]
  simp only [attempt, addClient, Records.addClient, checked, known]
  cases c.checkRegistry with
  | error e => exact ⟨rfl, h⟩
  | ok ok =>
    cases c.records.clients.contains client.id with
    | true => exact ⟨rfl, h⟩
    | false =>
      refine ⟨rfl, h.config, h.registry, h.mailbox, ?_, h.rows⟩
      change (c'.records.clients.put _ _).get? p = (c.records.clients.put _ _).get? p
      rw [Table.get?_put, Table.get?_put, h.client]

/-! ### Answers -/

theorem writesAs_eq {id : String} (known : Route.ofPath? r.path = some (.thread id))
    (taken : r.method ∈ (Route.thread id).methods) (asking : askingPeer (.thread id) r = .ok peer)
    (p : String) : r.writesAs p = (peer == p) := by
  rw [Request.writesAs, known]
  dsimp only
  rw [decide_eq_true taken, askingPeer_eq_ok rfl asking]
  rfl

theorem searchesAs_eq (known : Route.ofPath? r.path = some .search)
    (taken : r.method ∈ Route.search.methods) (asking : askingPeer .search r = .ok peer)
    (p : String) :
    r.searchesAs p = (PeerId.parse peer).toOption.any fun id => id.text == p := by
  rw [Request.searchesAs, known]
  dsimp only
  rw [decide_eq_true taken, askingPeer_eq_ok rfl asking]
  rfl

theorem registersAs_eq (known : Route.ofPath? r.path = some .clients)
    (taken : r.method ∈ Route.clients.methods) (now : Instant) (p : String) (c : Cafe) :
    r.registersAs p c.config now =
      (c.clientOf now r).toOption.any fun client => client.id == p := by
  rw [Request.registersAs, known]
  dsimp only
  rw [decide_eq_true taken]
  rfl

/-- The rest of an answer, after a route has had the request. -/
def finished (r : Request) (answered : Answer × Cafe) : Answer × Cafe :=
  ((trimBody r answered).1.anyOrigin, (trimBody r answered).2)

theorem aside_finished (r : Request) (a : Answer) : Aside p fun c => finished r (a, c) :=
  (aside_trimBody r a).map Answer.anyOrigin fun _ => rfl

theorem masks_finished {a a' : Answer × Cafe} (h : a'.1 = a.1 ∧ Masks p a.2 a'.2) (r : Request) :
    (finished r a').1 = (finished r a).1 ∧ Masks p (finished r a).2 (finished r a').2 := by
  obtain ⟨answer, c⟩ := a
  obtain ⟨answer', c'⟩ := a'
  obtain ⟨rfl, masks⟩ := h
  exact (aside_finished r _).blind masks

theorem Sees.finished {c : Cafe} {a : Answer × Cafe} (h : Sees p c a.2) (r : Request) :
    Sees p c (finished r a).2 :=
  h.trans ((aside_finished r a.1).sees a.2)

theorem Agrees.finished {a a' : Answer × Cafe} (h : Agrees p a a') (r : Request) :
    Agrees p (finished r a) (finished r a') := by
  obtain ⟨answer, c⟩ := a
  obtain ⟨answer', c'⟩ := a'
  obtain ⟨rfl, after⟩ := h
  exact ⟨congrArg Answer.anyOrigin (fst_trimBody r _ c c'),
    ((aside_finished r _).sees c).symm.trans (after.finished r)⟩

/-- What a request does, and whose it is. -/
inductive Does (now : Instant) (r : Request) : Prop
  | fixed (a : Answer) (goes : ∀ c, answer now r c = (a, c))
  | aside (all : ∀ p, Aside p (answer now r)) (nobody : ∀ p config, r.isOwn p config now = false)
  | thread (id peer : String) (own : ∀ p config, r.isOwn p config now = (peer == p))
      (goes : ∀ c, answer now r c = finished r (match c.look now peer id r with
        | .error a => (a, c)
        | .ok w => c.finish w))
  | search (peer : String)
      (own : ∀ p config, r.isOwn p config now =
        (PeerId.parse peer).toOption.any fun id => id.text == p)
      (searches : ∀ p, r.searchesAs p = (PeerId.parse peer).toOption.any fun id => id.text == p)
      (goes : ∀ c, answer now r c = finished r (c.answerSearch peer r, c))
  | clients
      (own : ∀ p (c : Cafe), r.isOwn p c.config now =
        (c.clientOf now r).toOption.any fun client => client.id == p)
      (goes : ∀ c, answer now r c = finished r (match c.clientOf now r with
        | .error a => (a, c)
        | .ok client => (registrationAnswer client (attempt (addClient client) c).1,
            (attempt (addClient client) c).2)))

theorem does_answer (now : Instant) (r : Request) : Does now r := by
  obtain ⟨a, same⟩ | ⟨route, peer, known, taken, asking, goes⟩ := answer_cases now r
  · exact .fixed a same
  have all (threads : ∀ id, route ≠ .thread id) (search : route ≠ .search)
      (clients : route ≠ .clients) (nobody : ∀ p config, r.isOwn p config now = false) :
      Does now r :=
    .aside (fun p => ((aside_answerRoute threads search clients now peer r).bind
      (aside_finished r)).congr goes) nobody
  -- three routes have to do with the threads of a peer
  cases route with
  | thread id =>
    refine .thread id peer (fun p config => ?_) fun c => ?_
    · simp [Request.isOwn, writesAs_eq known taken asking, Request.searchesAs,
        Request.registersAs, known]
    · rw [goes, answerRoute_thread]
      rfl
  | search =>
    refine .search peer (fun p config => ?_) (searchesAs_eq known taken asking) goes
    simp [Request.isOwn, searchesAs_eq known taken asking, Request.writesAs, Request.registersAs,
      known]
  | clients =>
    refine .clients (fun p c => ?_) fun c => ?_
    · simp [Request.isOwn, registersAs_eq known taken, Request.writesAs, Request.searchesAs, known]
    · rw [goes, answerRoute, answerClients_eq]
      rfl
  | _ =>
    refine all (by simp) (by simp) (by simp) fun p config => ?_
    simp [Request.isOwn, Request.writesAs, Request.searchesAs, Request.registersAs, known]

/-- What others know of the peer's snapshots: nothing. -/
theorem blind_answer (now : Instant) (silent : r.searchesAs p = false) :
    Blind p (answer now r) := by
  intro c c' masks
  cases does_answer now r with
  | fixed a goes =>
    rw [goes, goes]
    exact ⟨rfl, masks⟩
  | aside all nobody => exact (all p).blind masks
  | thread id peer own goes =>
    rw [goes, goes, look_congr masks.config (masks.registered peer)]
    refine masks_finished ?_ r
    cases c.look now peer id r with
    | error a => exact ⟨rfl, masks⟩
    | ok w => exact blind_finish w masks
  | search peer own searches goes =>
    rw [goes, goes]
    refine masks_finished ⟨answerSearch_congr masks.config (fun id asks => ?_) r, masks⟩ r
    rw [searches, asks] at silent
    exact masks.snapshotsOf (ne_of_beq_false silent)
  | clients own goes =>
    rw [goes, goes, clientOf_congr masks.config]
    refine masks_finished ?_ r
    cases c.clientOf now r with
    | error a => exact ⟨rfl, masks⟩
    | ok client =>
      obtain ⟨same, after⟩ := blind_addClient client masks
      exact ⟨congrArg (registrationAnswer client) same, after⟩

/-- A request of another changes nothing for the peer. -/
theorem sees_answer (other : r.isOwn p c.config now = false) : Sees p c (c.answer now r).2 := by
  cases does_answer now r with
  | fixed a goes =>
    rw [goes]
    exact Sees.refl p c
  | aside all nobody => exact (all p).sees c
  | thread id peer own goes =>
    rw [own] at other
    rw [goes]
    refine Sees.finished ?_ r
    cases found : c.look now peer id r with
    | error a => exact Sees.refl p c
    | ok w => exact sees_finish (client_of_look found ▸ ne_of_beq_false other) c
  | search peer own searches goes =>
    rw [goes]
    exact Sees.finished (Sees.refl p c) r
  | clients own goes =>
    rw [own] at other
    rw [goes]
    refine Sees.finished ?_ r
    cases found : c.clientOf now r with
    | error a => exact Sees.refl p c
    | ok client =>
      rw [found] at other
      exact (aside_addClient (ne_of_beq_false other)).sees c

/-- The peer's own requests depend on nothing but what it sees. -/
theorem agrees_answer (own : r.isOwn p c.config now = true) (h : Sees p c c') :
    Agrees p (c.answer now r) (c'.answer now r) := by
  cases does_answer now r with
  | fixed a goes =>
    rw [goes, goes]
    exact ⟨rfl, h⟩
  | aside all nobody =>
    rw [nobody] at own
    cases own
  | thread id peer whose goes =>
    rw [whose] at own
    obtain rfl := eq_of_beq own
    rw [goes, goes, look_congr h.config h.registered]
    refine Agrees.finished ?_ r
    cases found : c.look now peer id r with
    | error a => exact ⟨rfl, h⟩
    | ok w => exact agrees_finish (client_of_look found) h
  | search peer whose searches goes =>
    rw [goes, goes]
    refine Agrees.finished ⟨answerSearch_congr h.config (fun id asks => ?_) r, h⟩ r
    rw [whose, asks] at own
    rw [eq_of_beq (b := p) own]
    exact h.snapshotsOf
  | clients whose goes =>
    rw [whose] at own
    rw [goes, goes, clientOf_congr h.config]
    refine Agrees.finished ?_ r
    cases found : c.clientOf now r with
    | error a => exact ⟨rfl, h⟩
    | ok client =>
      rw [found] at own
      obtain ⟨same, after⟩ := agrees_addClient (eq_of_beq own) h
      exact ⟨congrArg (registrationAnswer client) same, after⟩

/-! ### What no request touches -/

/-- The configuration is the same, and whether the locks can be taken. -/
structure Steady (c c' : Cafe) : Prop where
  config : c'.config = c.config
  registry : c'.registryPoisoned = c.registryPoisoned
  mailbox : c'.mailboxPoisoned = c.mailboxPoisoned

theorem Sees.steady (h : Sees p c c') : Steady c c' := ⟨h.config, h.registry, h.mailbox⟩

theorem Steady.finished {a : Answer × Cafe} (h : Steady c a.2) (r : Request) :
    Steady c (finished r a).2 := by
  have trimmed := (aside_finished r a.1 (p := "")).sees a.2
  exact ⟨trimmed.config.trans h.config, trimmed.registry.trans h.registry,
    trimmed.mailbox.trans h.mailbox⟩

theorem steady_finish (w : Write) (c : Cafe) : Steady c (c.finish w).2 := by
  cases w with
  | put s =>
    simp only [finish, Write.op, attempt, putSnapshot]
    cases c.checkMailbox <;> exact ⟨rfl, rfl, rfl⟩
  | drop client thread =>
    simp only [finish, Write.op, attempt, dropSnapshot]
    cases c.checkMailbox <;> exact ⟨rfl, rfl, rfl⟩

theorem steady_addClient (client : Client) (c : Cafe) :
    Steady c (attempt (addClient client) c).2 := by
  simp only [attempt, addClient, Records.addClient]
  cases c.checkRegistry with
  | error e => exact ⟨rfl, rfl, rfl⟩
  | ok ok => cases c.records.clients.contains client.id <;> exact ⟨rfl, rfl, rfl⟩

theorem steady_answer (now : Instant) (r : Request) (c : Cafe) : Steady c (c.answer now r).2 := by
  cases does_answer now r with
  | fixed a goes =>
    rw [goes]
    exact ⟨rfl, rfl, rfl⟩
  | aside all nobody => exact ((all "").sees c).steady
  | thread id peer own goes =>
    rw [goes]
    refine Steady.finished ?_ r
    cases c.look now peer id r with
    | error a => exact ⟨rfl, rfl, rfl⟩
    | ok w => exact steady_finish w c
  | search peer own searches goes =>
    rw [goes]
    exact Steady.finished (a := (_, c)) ⟨rfl, rfl, rfl⟩ r
  | clients own goes =>
    rw [goes]
    refine Steady.finished ?_ r
    cases c.clientOf now r with
    | error a => exact ⟨rfl, rfl, rfl⟩
    | ok client => exact steady_addClient client c

end Cafe

end Relay
