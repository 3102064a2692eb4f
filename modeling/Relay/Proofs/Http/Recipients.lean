import Relay.Http.Answering
import Relay.Proofs.Cafe.Rejection
import Relay.Proofs.Except

/-!
# What a sender sees of recipients

A message for an unknown recipient is dropped before it is looked into, with the answer of a
message that is queued. So a sender sees whether a recipient is registered only by a message that
is refused for a registered one (`Cafe.seen_iff_refused`).
-/

namespace Relay

/-- The request comes so far that the message is delivered. -/
structure Request.Brings (r : Request) (c : Cafe) (d : Delivery) : Prop where
  route : ∃ sender recipient, Route.ofPath? r.path = some (.inbox sender recipient) ∧
    Text.Percent.decode? sender = some d.sender ∧
    Text.Percent.decode? recipient = some d.recipient
  method : r.method = .post
  peer : r.peer? ≠ none
  body : d.body = r.body
  short : r.body.length ≤ c.config.maxBodySize

/-- The answer with the header that all answers have. -/
def Answer.anyOrigin (a : Answer) : Answer := a.withHeader "access-control-allow-origin" "*"

theorem RequestError.status_ne_ok (e : RequestError) : e.status ≠ 200 := by
  cases e <;> simp [status]

namespace Answer

theorem status_anyOrigin_ofError (e : RequestError) : (ofError e).anyOrigin.status = e.status := by
  simp only [Answer.anyOrigin, withHeader, ofError]
  split <;> rfl

end Answer

namespace Cafe

variable {c c' : Cafe} {client : Client} {r : Request} {d : Delivery} {now : Instant}

def enrolled (c : Cafe) (client : Client) : Cafe :=
  { c with records := { c.records with
      clients := c.records.clients.put client.id ⟨client.address, client.created.storedText⟩ } }

/-- This is what registering a client makes of a cafe. -/
theorem addClient_eq_ok (added : c.addClient client = .ok c') : c' = c.enrolled client := by
  unfold addClient Records.addClient at added
  cases checked : c.checkRegistry with
  | error e =>
    rw [checked] at added
    cases added
  | ok ok =>
    rw [checked] at added
    split at added
    · cases added
    · cases added
      rfl

/-! ### Answers to messages -/

theorem pathText_eq_ok {name segment s : String} (h : pathText name segment = .ok s) :
    Text.Percent.decode? segment = some s := by
  unfold pathText at h
  split at h
  · next decoded =>
    cases h
    exact decoded
  · cases h

theorem bodyOf_eq_ok {bytes : Bytes} (h : c.bodyOf r = .ok bytes) :
    bytes = r.body ∧ r.body.length ≤ c.config.maxBodySize := by
  unfold bodyOf at h
  split at h
  · next short =>
    cases h
    exact ⟨rfl, short⟩
  · cases h

theorem askingPeer_eq_ok {route : Route} {peer : String} (needs : route.needsPeer = true)
    (h : askingPeer route r = .ok peer) : r.peer? = some peer := by
  rw [askingPeer, if_pos needs] at h
  split at h
  · next given =>
    cases h
    exact given
  · cases h

theorem answer_brings (h : r.Brings c d) (now : Instant) : c.answer now r =
    ((Answer.ofResult 200 (c.deliver now d).1).anyOrigin, (c.deliver now d).2) := by
  obtain ⟨⟨sender, recipient, route, from_, to_⟩, method, peer, body, short⟩ := h
  obtain ⟨name, given⟩ := Option.ne_none_iff_exists'.1 peer
  have asking : askingPeer (.inbox sender recipient) r = .ok name := by
    rw [askingPeer, if_pos (show (Route.inbox sender recipient).needsPeer = true from rfl), given]
  have taken : decide (r.method ∈ (Route.inbox sender recipient).methods) = true := by
    simp [method, Route.methods]
  have apart : r.method ≠ .options ∧ r.method ≠ .head := by
    rw [method]
    decide
  have inbox : c.answerInbox now sender recipient r =
      (Answer.ofResult 200 (c.deliver now d).1, (c.deliver now d).2) := by
    have whole : c.bodyOf r = .ok r.body := if_pos short
    simp only [answerInbox, pathText, from_, to_, whole, bind, Except.bind, pure, Except.pure]
    rw [← body]
  rw [answer, route, if_neg apart.1]
  dsimp only
  rw [answerKnown, asking, taken]
  dsimp only
  rw [answerRoute, inbox, trimBody, if_neg apart.2]
  rfl

theorem fst_trimBody (r : Request) (a : Answer) (c c' : Cafe) :
    (trimBody r (a, c')).1 = (trimBody r (a, c)).1 := by
  simp only [trimBody]
  split <;> rfl

/-- A request that brings no message is answered without a look at the clients. -/
theorem answer_of_not_brings {sender segment : String}
    (route : Route.ofPath? r.path = some (.inbox sender segment)) (config : c'.config = c.config)
    (none : ∀ d, ¬ r.Brings c d) (now : Instant) : (c'.answer now r).1 = (c.answer now r).1 := by
  have body : c'.bodyOf r = c.bodyOf r := by rw [bodyOf, bodyOf, config]
  rw [answer, answer, route]
  by_cases options : r.method = .options
  · rw [if_pos options, if_pos options]
  · rw [if_neg options, if_neg options]
    refine congrArg (Answer.withHeader · "access-control-allow-origin" "*") ?_
    rw [answerKnown, answerKnown]
    cases asking : askingPeer (.inbox sender segment) r with
    | error e =>
      cases decide (r.method ∈ (Route.inbox sender segment).methods) with
      | true => exact fst_trimBody r _ c c'
      | false => rfl
    | ok peer =>
      cases taken : decide (r.method ∈ (Route.inbox sender segment).methods) with
      | false => rfl
      | true =>
        dsimp only
        rw [answerRoute, answerRoute, answerInbox, answerInbox, body]
        cases from_ : pathText "from" sender with
        | error a => exact fst_trimBody r a c c'
        | ok name =>
          cases to_ : pathText "to" segment with
          | error a => exact fst_trimBody r a c c'
          | ok recipient =>
            cases whole : c.bodyOf r with
            | error a => exact fst_trimBody r a c c'
            | ok bytes =>
              obtain ⟨rfl, short⟩ := bodyOf_eq_ok whole
              have given := askingPeer_eq_ok rfl asking
              simp only [Route.methods, List.mem_singleton, decide_eq_true_eq] at taken
              exact absurd
                ⟨⟨sender, segment, route, pathText_eq_ok from_, pathText_eq_ok to_⟩, taken,
                  by rw [given]; simp, rfl, short⟩ (none ⟨name, recipient, r.body⟩)

/-! ### Recipients -/

/-- A message for an unknown recipient is dropped unread. -/
theorem deliver_unknown (unknown : c.records.clients.get? d.recipient = none)
    (healthy : c.registryPoisoned = false) (now : Instant) :
    c.deliver now d = (.ok .dropped, c) := by
  have looked : c.client? d.recipient = .ok none := by
    rw [client?_of_healthy healthy, Records.client?, unknown]
  exact Delivery.deliver_dropped looked now

theorem deliver_poisoned (poisoned : c.registryPoisoned = true) (now : Instant) :
    (c.deliver now d).1 = .error (.ofRecords .poisoned) :=
  congrArg Prod.fst (Delivery.deliver_unread (client?_of_poisoned poisoned) now)

theorem recipient_of_brings {sender segment : String} (brings : r.Brings c d)
    (route : Route.ofPath? r.path = some (.inbox sender segment))
    (named : Text.Percent.decode? segment = some client.id) : d.recipient = client.id := by
  obtain ⟨sender', segment', route', -, to_⟩ := brings.route
  rw [route] at route'
  cases route'
  rw [named] at to_
  exact (Option.some.inj to_).symm

theorem answer_unknown (brings : r.Brings c d)
    (unknown : c.records.clients.get? d.recipient = none) (healthy : c.registryPoisoned = false)
    (now : Instant) : c.answer now r = ((Answer.ofStatus 200).anyOrigin, c) := by
  rw [answer_brings brings, deliver_unknown unknown healthy]
  rfl

theorem answer_enrolled (brings : r.Brings c d) (client : Client) (now : Instant) :
    ((c.enrolled client).answer now r).1 =
      (Answer.ofResult 200 ((c.enrolled client).deliver now d).1).anyOrigin := by
  have brings : r.Brings (c.enrolled client) d :=
    ⟨brings.route, brings.method, brings.peer, brings.body, brings.short⟩
  rw [answer_brings brings]

theorem anyOrigin_ofError_ne (e : RequestError) :
    (Answer.ofError e).anyOrigin ≠ (Answer.ofStatus 200).anyOrigin := by
  intro same
  have status := congrArg Answer.status same
  rw [Answer.status_anyOrigin_ofError] at status
  exact e.status_ne_ok status

/-- A sender sees that a recipient is registered by a message that is refused, and only by one.
What is sent to an unknown recipient has the answer of a message that is queued, whatever it is,
and changes nothing. -/
theorem seen_iff_refused {sender segment : String}
    (unknown : c.records.clients.get? client.id = none)
    (route : Route.ofPath? r.path = some (.inbox sender segment))
    (named : Text.Percent.decode? segment = some client.id) (now : Instant) :
    (((c.enrolled client).answer now r).1 ≠ (c.answer now r).1 ↔ c.registryPoisoned = false ∧
      ∃ d e, r.Brings c d ∧ ((c.enrolled client).deliver now d).1 = .error e) ∧
    ∀ d, r.Brings c d → c.registryPoisoned = false →
      c.answer now r = ((Answer.ofStatus 200).anyOrigin, c) ∧
      ∀ e, ((c.enrolled client).deliver now d).1 = .error e →
        ((c.enrolled client).answer now r).1 = (Answer.ofError e).anyOrigin := by
  have dropped : ∀ d, r.Brings c d → c.registryPoisoned = false →
      c.answer now r = ((Answer.ofStatus 200).anyOrigin, c) := by
    intro d brings healthy
    apply answer_unknown brings _ healthy
    rw [recipient_of_brings brings route named]
    exact unknown
  have refuses : ∀ d, r.Brings c d → ∀ e, ((c.enrolled client).deliver now d).1 = .error e →
      ((c.enrolled client).answer now r).1 = (Answer.ofError e).anyOrigin := by
    intro d brings e refused
    rw [answer_enrolled brings, refused]
    rfl
  refine ⟨⟨?_, ?_⟩, ?_⟩
  · intro differ
    by_cases brought : ∃ d, r.Brings c d
    · obtain ⟨d, brings⟩ := brought
      cases poisoned : c.registryPoisoned with
      | true =>
        -- then neither answer depends on the clients
        refine absurd ?_ differ
        rw [answer_enrolled brings, answer_brings brings, deliver_poisoned poisoned,
          deliver_poisoned (show (c.enrolled client).registryPoisoned = true from poisoned)]
      | false =>
        refine ⟨rfl, d, ?_⟩
        cases delivered : ((c.enrolled client).deliver now d).1 with
        | error e => exact ⟨e, brings, rfl⟩
        | ok outcome =>
          refine absurd ?_ differ
          rw [answer_enrolled brings, delivered, dropped d brings poisoned]
          rfl
    · refine absurd ?_ differ
      have same : (c.enrolled client).config = c.config := rfl
      exact answer_of_not_brings route same (fun d brings => brought ⟨d, brings⟩) now
  · rintro ⟨healthy, d, e, brings, refused⟩ same
    rw [refuses d brings e refused, dropped d brings healthy] at same
    exact anyOrigin_ofError_ne e same
  · intro d brings healthy
    exact ⟨dropped d brings healthy, refuses d brings⟩

/-! ### Garbage for one recipient -/

def vacant : Cafe := ofConfig {}

def bob : Client := { id := "bob", address := "", created := .epoch }

def fromAlice (body : Bytes) : Request :=
  { method := .post, target := "/cafe/v1/inbox/alice/bob", headers := [("x-cafe-peer", "alice")]
    body }

theorem route_fromAlice (body : Bytes) :
    Route.ofPath? (fromAlice body).path = some (.inbox "alice" "bob") := by
  have path : (fromAlice body).path = (fromAlice []).path := by
    simp only [Request.path, fromAlice]
  rw [path]
  decide +kernel

theorem decode_alice : Text.Percent.decode? "alice" = some "alice" := by decide +kernel

theorem decode_bob : Text.Percent.decode? "bob" = some "bob" := by decide +kernel

theorem fromAlice_brings {body : Bytes} (short : body.length ≤ c.config.maxBodySize) :
    (fromAlice body).Brings c ⟨"alice", "bob", body⟩ where
  route := ⟨"alice", "bob", route_fromAlice body, decode_alice, decode_bob⟩
  method := rfl
  peer := by
    have given : (fromAlice []).peer? ≠ none := by decide +kernel
    exact given
  body := rfl
  short := short

theorem eq_of_fromAlice_brings {body : Bytes} (h : (fromAlice body).Brings c d) :
    d = ⟨"alice", "bob", body⟩ := by
  obtain ⟨⟨sender, recipient, route, from_, to_⟩, -, -, same, -⟩ := h
  rw [route_fromAlice] at route
  cases route
  rw [decode_alice, Option.some.injEq] at from_
  rw [decode_bob, Option.some.injEq] at to_
  obtain ⟨sender, recipient, bytes⟩ := d
  cases from_
  cases to_
  cases same
  rfl

theorem queued_unseen : vacant.records.clients.get? bob.id = none ∧
    Route.ofPath? (fromAlice Delivery.toBob.body).path = some (.inbox "alice" "bob") ∧
    Text.Percent.decode? "bob" = some bob.id ∧
    (∃ id, ((vacant.enrolled bob).deliver .epoch Delivery.toBob).1 = .ok (.queued id)) ∧
    ((vacant.enrolled bob).answer .epoch (fromAlice Delivery.toBob.body)).1 =
      (vacant.answer .epoch (fromAlice Delivery.toBob.body)).1 := by
  have unknown : vacant.records.clients.get? bob.id = none := rfl
  have route := route_fromAlice Delivery.toBob.body
  have delivered : ((vacant.enrolled bob).deliver .epoch Delivery.toBob).1 =
      .ok (.queued Delivery.toBob.bodyId) := by
    have ended : (Delivery.toBob.steps .epoch 9 (.lookUp, vacant.enrolled bob)).1.result?.map
        Except.toOption = some (some (.queued Delivery.toBob.bodyId)) := by
      decide +kernel
    obtain ⟨r, result, seen⟩ := Option.map_eq_some_iff.1 ended
    rw [Delivery.deliver_of_result result]
    exact toOption_eq_some_iff.1 seen
  refine ⟨unknown, route, decode_bob, ⟨_, delivered⟩, ?_⟩
  obtain ⟨seen, -⟩ := seen_iff_refused unknown route decode_bob .epoch
  refine Classical.byContradiction fun differ => ?_
  obtain ⟨-, d, e, brings, refused⟩ := seen.1 differ
  rw [eq_of_fromAlice_brings brings] at refused
  cases refused.symm.trans delivered

/-- Bytes that are no message are refused for a client, and dropped for anyone else. -/
theorem garbage_seen : ¬ ∀ (c : Cafe) (client : Client) (r : Request) (sender segment : String)
    (now : Instant), c.records.clients.get? client.id = none →
    Route.ofPath? r.path = some (.inbox sender segment) →
    Text.Percent.decode? segment = some client.id →
    ((c.enrolled client).answer now r).1.status = (c.answer now r).1.status ∧
      ((c.enrolled client).answer now r).1.body = (c.answer now r).1.body := by
  intro same
  let garbage : Bytes := [255, 255, 255]
  obtain ⟨status, -⟩ := same vacant bob (fromAlice garbage) "alice" "bob" .epoch rfl
    (route_fromAlice garbage) decode_bob
  have short : garbage.length ≤ vacant.config.maxBodySize := by decide
  have dropped : vacant.deliver .epoch ⟨"alice", "bob", garbage⟩ = (.ok .dropped, vacant) := by
    apply deliver_unknown <;> rfl
  have refused : ((vacant.enrolled bob).deliver .epoch ⟨"alice", "bob", garbage⟩).1 =
      .error (.malformedInput "Malformed envelope: io error: unexpected end of file") := by
    apply Delivery.deliver_of_result (n := 1)
    apply Delivery.result_of_refusal
    decide +kernel
  have brings : (fromAlice garbage).Brings (vacant.enrolled bob) ⟨"alice", "bob", garbage⟩ :=
    fromAlice_brings short
  rw [answer_brings (fromAlice_brings short), dropped, answer_brings brings, refused] at status
  exact RequestError.status_ne_ok _ ((Answer.status_anyOrigin_ofError _).symm.trans status)

end Cafe

end Relay
