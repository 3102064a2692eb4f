import Relay.Http.Starting
import Relay.Proofs.Search.Listing
import Relay.Proofs.Search.Results
import Relay.Proofs.Search.Streaming

/-!
# Searches

A search is answered with the snapshots that its query finds, whatever the size of the channel
and whichever of producer and writer goes on first: `search_finds_newest`.
-/

namespace Relay

/-- The bytes of a body that has ended. -/
def AnswerBody.written : AnswerBody → Bytes
  | .bytes bs => bs
  | .frames r => r.body
  | .notices _ => []

/-- What a client finds in the body of an answer to a search. -/
def AnswerBody.results? (body : AnswerBody) : Option (List QueryResult) := do
  let payloads ← (Frame.decode body.written).toOption
  payloads.mapM QueryResult.ofFrame?

/-- A response that has ended without a fault and brings the given results. -/
structure Response.Serves (found : List QueryResult) (r : Response) : Prop where
  whole : r.state = .empty ∨ r.state = .complete
  status : r.answer.status = 200
  body : r.answer.body.results? = some found
  empty : r.answer.body.written = [] ↔ found = []

/-- A request of a peer that searches with a query of the relay's own kind. -/
structure Request.Searches (r : Request) (c : Cafe) (peer : PeerId) (query : Envelope)
    (q : Query) : Prop where
  route : Route.ofPath? r.path = some .search
  method : r.method = .post
  peer : ∃ text, r.peer? = some text ∧ PeerId.parse text = .ok peer
  short : r.body.length ≤ c.config.maxBodySize
  body : Envelope.ofBytes r.body = .ok query
  opened : query.query = .ok q

namespace Response

/-- The whole response, if its channel is made. -/
theorem ofScript?_eq (makes : Nat → Bool) (buffer : Nat) (script : List Emission)
    (most : Option Nat) : ofScript? makes buffer script most =
      if makes (max 1 buffer) then some (ofScript buffer script most) else none := by
  rw [ofScript?, start?, Channel.make?]
  by_cases made : makes (max 1 buffer) = true
  · rw [if_pos made, if_pos made]
    rfl
  · rw [if_neg made, if_neg made]
    rfl

/-! ### What a response brings -/

theorem written_ended {items : List Envelope} {r : Response} (h : Ended items r) :
    r.answer.body.written = ((items.map Envelope.toBytes).map Frame.of).flatten := by
  rcases h.state with ⟨state, rfl⟩ | ⟨state, _⟩
  · rw [answer, state]
    rfl
  · rw [answer, state]
    change r.frames.flatten = _
    rw [h.frames, List.map_map]
    rfl

theorem serves_ended {found : List QueryResult} {r : Response}
    (fits : ∀ s ∈ found, Index.fits s.wrap) (regular : ∀ s ∈ found, s.date.Regular)
    (h : Ended (found.map QueryResult.wrap) r) :
    r.Serves found := by
  have written := written_ended h
  constructor
  · rcases h.state with ⟨state, _⟩ | ⟨state, _⟩
    · exact .inl state
    · exact .inr state
  · rcases h.state with ⟨state, _⟩ | ⟨state, _⟩
    all_goals rw [answer, state]
    rfl
  · have small : ∀ p ∈ (found.map QueryResult.wrap).map Envelope.toBytes,
        p.length ≤ Frame.maxPayload := by
      intro p mem
      obtain ⟨e, he, rfl⟩ := List.mem_map.1 mem
      obtain ⟨s, hs, rfl⟩ := List.mem_map.1 he
      exact of_decide_eq_true (fits s hs)
    rw [AnswerBody.results?, written, Frame.decode_flatten small, List.map_map]
    exact Index.mapM_ofFrame? fits regular
  · rw [written, Frame.flatten_eq_nil_iff, List.map_eq_nil_iff, List.map_eq_nil_iff]

end Response

namespace Cafe

/-! ### What the index answers -/

theorem snapshotsOf_eq {c : Cafe} {client : String} {own : List Snapshot}
    (healthy : c.mailboxPoisoned = false)
    (readable : (c.records.ownRows client).mapM Records.readSnapshot = .ok own) :
    c.snapshotsOf client = .ok (Snapshot.newestFirst own) := by
  have checked : c.checkMailbox = .ok () := by
    rw [checkMailbox, healthy]
    rfl
  rw [snapshotsOf, checked]
  exact Records.snapshotsOf_eq readable

theorem emissions_eq {c : Cafe} {client : String} {query : Envelope} {q : Query}
    {own : List Snapshot} (opened : query.query = .ok q) (healthy : c.mailboxPoisoned = false)
    (readable : (c.records.ownRows client).mapM Records.readSnapshot = .ok own) :
    c.emissions client query =
      ((Index.answers q.limit.toNat (Snapshot.newestFirst own)).map QueryResult.wrap).map
        .item := by
  rw [emissions, Index.emissions, opened, snapshotsOf_eq healthy readable]
  dsimp only
  rw [Index.results_eq]

/-! ### What the request is answered -/

theorem answerSearch_eq_queryOf (peer : String) (r : Request) (c : Cafe) :
    c.answerSearch peer r = match c.queryOf peer r with
      | .error a => a
      | .ok (peer, query) => (c.search peer.text query).answer := by
  rw [answerSearch, queryOf]
  cases c.bodyOf r with
  | error a => rfl
  | ok body =>
    dsimp only [bind, Except.bind]
    cases peerIdOf peer with
    | error e => rfl
    | ok id =>
      cases envelopeOf body with
      | error e => rfl
      | ok query => rfl

theorem queryOf_eq {c : Cafe} {text : String} {r : Request} {peer : PeerId}
    {query : Envelope} (asks : PeerId.parse text = .ok peer)
    (short : r.body.length ≤ c.config.maxBodySize) (body : Envelope.ofBytes r.body = .ok query) :
    c.queryOf text r = .ok (peer, query) := by
  have hb : c.bodyOf r = .ok r.body := if_pos short
  have hp : peerIdOf text = .ok peer := by
    rw [peerIdOf, asks]
    rfl
  have he : envelopeOf r.body = .ok query := by
    rw [envelopeOf, body]
    rfl
  rw [queryOf, hb]
  dsimp only [bind, Except.bind]
  rw [hp, he]
  rfl

theorem search?_eq (makes : Nat → Bool) (c : Cafe) (peer : String) (query : Envelope) :
    c.search? makes peer query =
      if makes (max 1 c.config.queryBuffer) then some (c.search peer query) else none :=
  Response.ofScript?_eq makes c.config.queryBuffer (c.emissions peer query) none

theorem answer_of_search {c : Cafe} {r : Request} {peer : String} (now : Instant)
    (route : Route.ofPath? r.path = some .search) (post : r.method = .post)
    (asking : r.peer? = some peer) :
    c.answer now r =
      ((c.answerSearch peer r).withHeader "access-control-allow-origin" "*", c) := by
  have asks : askingPeer .search r = .ok peer := by
    rw [askingPeer, if_pos (show Route.search.needsPeer = true from rfl), asking]
  have taken : decide (r.method ∈ Route.search.methods) = true := by
    rw [post]
    decide
  have method : r.method ≠ .options ∧ r.method ≠ .head := by
    rw [post]
    decide
  have known : c.answerKnown now .search r = (c.answerSearch peer r, c) := by
    rw [answerKnown, asks, taken]
    exact if_neg method.2
  rw [answer, route, if_neg method.1]
  dsimp only
  rw [known]

theorem answer_search {c : Cafe} {r : Request} {peer : PeerId} {query : Envelope} {q : Query}
    (now : Instant) (h : r.Searches c peer query q) :
    c.answer now r = ((c.search peer.text query).answer.withHeader
      "access-control-allow-origin" "*", c) := by
  obtain ⟨text, given, asks⟩ := h.peer
  rw [answer_of_search now h.route h.method given, answerSearch_eq_queryOf,
    queryOf_eq asks h.short h.body]

theorem answer?_search {c : Cafe} {r : Request} {peer : PeerId} {query : Envelope} {q : Query}
    (makes : Nat → Bool) (now : Instant) (h : r.Searches c peer query q) :
    c.answer? makes now r =
      if makes (max 1 c.config.queryBuffer) then some (c.answer now r) else none := by
  obtain ⟨text, given, asks⟩ := h.peer
  rw [answer_search now h, answer?, h.route, h.method, given]
  dsimp only
  rw [answerSearch?, queryOf_eq asks h.short h.body]
  dsimp only
  rw [search?_eq]
  split <;> rfl

/-- A search brings exactly the peer's own snapshots as they were listed, the newest first,
without those whose result fits no frame, up to the limit. In every order of steps the response
has not ended or has brought them all, with enough turns of producer and writer it has ended, and
the request is answered by such a response if its channel is made. -/
theorem search_finds_newest {c : Cafe} {r : Request} {peer : PeerId} {query : Envelope}
    {q : Query} {own : List Snapshot} (now : Instant) (asked : r.Searches c peer query q)
    (healthy : c.mailboxPoisoned = false)
    (readable : (c.records.ownRows peer.text).mapM Records.readSnapshot = .ok own) :
    let found := Index.answers q.limit.toNat (Snapshot.newestFirst own)
    let begun := Response.start c.config.queryBuffer (c.emissions peer.text query)
    (∀ events, Response.Undisturbed events →
      (begun.run events).isOpen ∨ (begun.run events).Serves found) ∧
    (∀ events, Response.Undisturbed events → Response.Turns (found.length + 2) events →
      (begun.run events).Serves found) ∧
    ∃ events, Response.Undisturbed events ∧ (begun.run events).Serves found ∧
      c.answer now r =
        ((begun.run events).answer.withHeader "access-control-allow-origin" "*", c) ∧
      ∀ makes : Nat → Bool, c.answer? makes now r =
        if makes (max 1 c.config.queryBuffer) then
          some ((begun.run events).answer.withHeader "access-control-allow-origin" "*", c)
        else none := by
  intro found begun
  have small : ∀ s ∈ found, Index.fits s.wrap := by
    intro s mem
    obtain ⟨_, -, fits, rfl⟩ := Index.exists_of_mem_answers mem
    exact fits
  have regular : ∀ s ∈ found, s.date.Regular := by
    intro s mem
    obtain ⟨t, listed, -, rfl⟩ := Index.exists_of_mem_answers mem
    have own := (Snapshot.newestFirst_perm own).mem_iff.1 listed
    exact (Records.readsBack_of_read readable own).regular
  have fits : ∀ e ∈ found.map QueryResult.wrap, Index.fits e := by
    intro e mem
    obtain ⟨s, hs, rfl⟩ := List.mem_map.1 mem
    exact small s hs
  have emitted := emissions_eq asked.opened healthy readable
  have carries : Response.Carries (found.map QueryResult.wrap) begun := by
    rw [show begun = Response.start _ _ from rfl, emitted]
    exact Response.carries_start _ _
  have reads : begun.toRead = found.length + 2 := by
    rw [show begun = Response.start _ _ from rfl, emitted]
    change ((found.map QueryResult.wrap).map Emission.item).length + 0 + 2 = _
    rw [List.length_map, List.length_map]
  refine ⟨?_, ?_, ?_⟩
  · intro events quiet
    cases going : (begun.run events).isOpen with
    | true => exact .inl rfl
    | false =>
      have ended := Response.ended_of_closed (Response.carries_run fits quiet carries).1 going
      exact .inr (Response.serves_ended small regular ended)
  · intro events quiet turns
    have spent := Response.toRead_run_of_turns fits quiet carries turns (Nat.le_of_eq reads)
    have ended := Response.ended_of_toRead (Response.carries_run fits quiet carries).1 spent
    exact Response.serves_ended small regular ended
  · obtain ⟨⟨events, quiet, ran⟩, reaches⟩ :=
      Response.drive_spec fits ((c.emissions peer.text query).length + 4) carries
    have length : (c.emissions peer.text query).length = found.length := by
      rw [emitted, List.length_map, List.length_map]
    have read : (begun.run events).toRead = 0 := by
      rw [← ran]
      exact reaches (by omega)
    have ended := Response.ended_of_toRead (Response.carries_run fits quiet carries).1 read
    have answered : c.answer now r =
        ((begun.run events).answer.withHeader "access-control-allow-origin" "*", c) := by
      rw [answer_search now asked, ← ran]
      rfl
    refine ⟨events, quiet, Response.serves_ended small regular ended, answered, fun makes => ?_⟩
    rw [answer?_search makes now asked, answered]

/-! ### A search with a limit -/

def anonymous : PeerId := { code := 0, digest := [], supported := by decide }

def searchRequest (q : Query) : Request :=
  { method := .post, target := "/cafe/v1/search", headers := [("x-cafe-peer", anonymous.text)]
    body := q.wrap.toBytes }

def secondMinute : Instant := (Instant.of? 60 0).getD .epoch

def twoThreads : List Snapshot :=
  [⟨"a", anonymous.text, [1], .epoch⟩, ⟨"b", anonymous.text, [2], secondMinute⟩]

def withTwoThreads : Cafe :=
  { ofConfig {} with records := twoThreads.foldl Records.putSnapshot {} }

theorem searchRequest_searches :
    (searchRequest ⟨"q", 1⟩).Searches withTwoThreads anonymous (Query.wrap ⟨"q", 1⟩)
      ⟨"q", 1⟩ where
  route := by decide +kernel
  method := rfl
  peer := ⟨anonymous.text, by decide +kernel, toOption_eq_some_iff.1 (by decide +kernel)⟩
  short := by decide +kernel
  body := toOption_eq_some_iff.1 (by decide +kernel)
  opened := toOption_eq_some_iff.1 (by decide +kernel)

theorem newestFirst_twoThreads : Snapshot.newestFirst twoThreads = twoThreads.reverse := by
  unfold Snapshot.newestFirst twoThreads
  rw [List.mergeSort]
  simp [List.MergeSort.Internal.splitInTwo, List.merge]
  decide

/-- Of two snapshots a limit of one leaves the newer. -/
theorem search_finds_newer_thread :
    ∃ response : Response, response.Serves [⟨"b", secondMinute, [2]⟩] ∧
      withTwoThreads.answer? Channel.documented .epoch (searchRequest ⟨"q", 1⟩) =
        some (response.answer.withHeader "access-control-allow-origin" "*", withTwoThreads) := by
  have found : Index.answers (1 : UInt32).toNat (Snapshot.newestFirst twoThreads) =
      [⟨"b", secondMinute, [2]⟩] := by
    rw [newestFirst_twoThreads]
    decide +kernel
  have readable : (withTwoThreads.records.ownRows anonymous.text).mapM Records.readSnapshot =
      .ok twoThreads := toOption_eq_some_iff.1 (by decide +kernel)
  obtain ⟨events, _, serves, -, answered⟩ :=
    (search_finds_newest .epoch searchRequest_searches rfl readable).2.2
  exact ⟨_, found ▸ serves, answered Channel.documented⟩

end Cafe

end Relay
