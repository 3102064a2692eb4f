import Relay.Proofs.Http.Peers
import Relay.Proofs.Notify.WatchSteps

/-!
# Watch requests that fail

A watch request subscribes before it lists the inbox. If the inbox cannot be listed the new
subscription is dropped again, but the one whose place it took does not come back: its client has
no watcher then. A request that fails before it subscribes changes nothing (`Cafe.failed_watch`).
-/

namespace Relay

namespace Watchers

variable {r : Watchers} {client : String} {id : SubscriptionId}

/-- Without the watcher of a client. A new one came and went. -/
def vacated (r : Watchers) (client : String) : Watchers :=
  { r with
    slots := r.slots.erase client
    connections := r.connections.erase r.nextSubscription
    nextSubscription := r.nextSubscription + 1 }

theorem unsubscribe_subscribe (r : Watchers) (client : String) :
    (r.subscribe client).2.unsubscribe (r.subscribe client).1 = r.vacated client := by
  have connected : (r.subscribe client).2.connections.get? (r.subscribe client).1 =
      some { client } := (Table.get?_put _ _ _ _).trans (if_pos rfl)
  have current : (r.subscribe client).2.numbered? client (r.subscribe client).1 =
      some (r.subscribe client).1 :=
    numbered_of_slot ((Table.get?_put _ _ _ _).trans (if_pos rfl))
  rw [unsubscribe, connected]
  dsimp only
  rw [current, Option.isSome_some, if_pos rfl]
  simp only [Connection.line, List.append_nil, List.foldl_nil, subscribe, Table.erase_put, vacated]

/-- The client has no watcher any more: one that it had is not told again, yields what it has and
ends. All else is as before, apart from the number of the next subscription. -/
structure Vacates (client : String) (r r' : Watchers) : Prop where
  vacant : r'.slots.get? client = none
  others : ∀ other, other ≠ client → r'.slots.get? other = r.slots.get? other
  sends : r'.sends = r.sends
  connections : ∀ id, id ≠ r.nextSubscription → r'.connections.get? id = r.connections.get? id
  gone : r'.connections.get? r.nextSubscription = none
  unreached : ∀ date, r'.lookUp client date = none
  deaf : ∀ id c notice, r'.connections.get? id = some c → c.client = client →
    r'.push id notice = r'
  ends : ∀ id c, r'.connections.get? id = some c → c.client = client →
    (r'.receive id).map Prod.fst = some (c.yields (r.inFlight id))

theorem vacates_vacated (r : Watchers) (client : String) : Vacates client r (r.vacated client) := by
  have vacant : (r.vacated client).slots.get? client = none :=
    (Table.get?_erase _ _ _).trans (if_pos rfl)
  have other : ∀ {id} {c : Connection}, c.client = client →
      (r.vacated client).slots.get? c.client ≠ some id := by
    rintro id c rfl
    rw [vacant]
    simp
  refine ⟨vacant, ?_, rfl, ?_, ?_, ?_, ?_, ?_⟩
  · intro other apart
    exact (Table.get?_erase _ _ _).trans (if_neg apart)
  · intro id apart
    exact (Table.get?_erase _ _ _).trans (if_neg apart)
  · exact (Table.get?_erase _ _ _).trans (if_pos rfl)
  · intro date
    rw [lookUp, vacant]
    rfl
  · intro id c notice there own
    refine push_of_vacant notice fun c' there' => ?_
    rw [there] at there'
    cases there'
    exact own ▸ vacant
  · intro id c there own
    exact receive_of_not_current there (other own)

end Watchers

namespace Cafe

variable {c : Cafe} {r : Request} {peer : String} {client : Client} {e : RequestError}
  {now : Instant}

theorem watch_unregistered (unknown : c.registered peer = .error e) (now : Instant) :
    c.watch now peer = (.error e, c) := by
  rw [watch, ← Watch.run_step, Watch.step, unknown, Watch.run_finished]

theorem watch_registered (known : c.registered peer = .ok client) (now : Instant) :
    c.watch now peer =
      Watch.run peer now (.list (c.subscribe peer).1) (c.subscribe peer).2 := by
  rw [watch, ← Watch.run_step, Watch.step, known, ← Watch.run_step]
  rfl

theorem watch_unread (known : c.registered peer = .ok client) (unread : c.inbox peer = .error e)
    (now : Instant) :
    c.watch now peer = (.error e, { c with watchers := c.watchers.vacated peer }) := by
  have same : (c.subscribe peer).2.inbox peer = .error e := unread
  rw [watch_registered known, ← Watch.run_step, Watch.step, same, Watch.run_finished,
    ← Watchers.unsubscribe_subscribe]
  rfl

theorem watch_read (known : c.registered peer = .ok client) {messages : List Message}
    (read : c.inbox peer = .ok messages) (now : Instant) :
    ∃ id, (c.watch now peer).1 = .ok id := by
  have same : (c.subscribe peer).2.inbox peer = .ok messages := read
  refine ⟨(c.subscribe peer).1, ?_⟩
  rw [watch_registered known, ← Watch.run_step, Watch.step, same]
  cases messages with
  | nil => rw [Watch.run_finished]
  | cons message rest => rw [← Watch.run_step, Watch.step, Watch.run_finished]

theorem answer_watch (watches : Route.ofPath? r.path = some .watch) (get : r.method = .get)
    (given : r.peer? = some peer) (now : Instant) (c : Cafe) :
    c.answer now r = ((c.answerWatch now peer).1.anyOrigin, (c.answerWatch now peer).2) := by
  have asking : askingPeer .watch r = .ok peer := by
    rw [askingPeer, if_pos (show Route.watch.needsPeer = true from rfl), given]
  have taken : decide (r.method ∈ Route.watch.methods) = true := by
    rw [get]
    rfl
  have apart : r.method ≠ .options ∧ r.method ≠ .head := by
    rw [get]
    decide
  rw [answer, watches, if_neg apart.1]
  dsimp only
  rw [answerKnown, asking, taken]
  dsimp only
  rw [answerRoute, trimBody, if_neg apart.2]
  rfl

theorem answer_unnamed (watches : Route.ofPath? r.path = some .watch) (nobody : r.peer? = none)
    (now : Instant) (c : Cafe) : (c.answer now r).2 = c := by
  have asking : askingPeer .watch r = .error (.unauthorized "Missing x-cafe-peer header") := by
    rw [askingPeer, if_pos (show Route.watch.needsPeer = true from rfl), nobody]
  obtain ⟨a, fixed⟩ | ⟨route, peer, known, -, named, -⟩ := answer_cases now r
  · rw [fixed]
  · rw [watches, Option.some.injEq] at known
    subst known
    rw [asking] at named
    cases named

theorem status_answerWatch {id : SubscriptionId} (opened : (c.watch now peer).1 = .ok id) :
    (c.answerWatch now peer).1.anyOrigin.status = 200 := by
  unfold answerWatch
  generalize c.watch now peer = watched at opened
  obtain ⟨result, c'⟩ := watched
  cases opened
  rfl

/-- A watch request that fails changes nothing, unless a client asks whose inbox cannot be listed.
That client has no watcher then. -/
theorem failed_watch (watches : Route.ofPath? r.path = some .watch) (get : r.method = .get)
    (failed : 400 ≤ (c.answer now r).1.status) :
    ((∀ peer client, r.peer? = some peer → c.registered peer ≠ .ok client) →
      (c.answer now r).2 = c) ∧
    ∀ peer client, r.peer? = some peer → c.registered peer = .ok client →
      (∃ e, c.inbox peer = .error e) ∧
      (c.answer now r).2 = { c with watchers := (c.answer now r).2.watchers } ∧
      c.watchers.Vacates peer (c.answer now r).2.watchers := by
  refine ⟨fun stranger => ?_, fun peer client given known => ?_⟩
  · cases given : r.peer? with
    | none => exact answer_unnamed watches given now c
    | some peer =>
      rw [answer_watch watches get given]
      dsimp only
      cases known : c.registered peer with
      | ok client => exact absurd known (stranger peer client given)
      | error e => rw [answerWatch, watch_unregistered known]
  · rw [answer_watch watches get given] at failed ⊢
    dsimp only at failed ⊢
    cases inbox : c.inbox peer with
    | ok messages =>
      obtain ⟨id, opened⟩ := watch_read known inbox now
      rw [status_answerWatch opened] at failed
      exact absurd failed (by decide)
    | error e =>
      rw [answerWatch, watch_unread known inbox]
      exact ⟨⟨e, rfl⟩, rfl, Watchers.vacates_vacated c.watchers peer⟩

/-- Bob watches his inbox, and the mailbox cannot be used. -/
def unreadable : Cafe :=
  { Delivery.poisoned with watchers := (({} : Watchers).subscribe "bob").2 }

def bobWatches : Request :=
  { method := .get, target := "/cafe/v1/inbox/watch", headers := [("x-cafe-peer", "bob")] }

theorem route_bobWatches : Route.ofPath? bobWatches.path = some .watch := by decide +kernel

theorem bobWatches_fails : 400 ≤ (unreadable.answer .epoch bobWatches).1.status := by
  decide +kernel

theorem unreadable_vacates :
    400 ≤ (unreadable.answer .epoch bobWatches).1.status ∧
      unreadable.watchers.Vacates "bob" (unreadable.answer .epoch bobWatches).2.watchers := by
  obtain ⟨client, known⟩ : ∃ client, unreadable.registered "bob" = .ok client := ⟨_, rfl⟩
  have given : bobWatches.peer? = some "bob" := by decide +kernel
  exact ⟨bobWatches_fails,
    ((failed_watch route_bobWatches rfl bobWatches_fails).2 "bob" client given known).2.2⟩

/-- The watcher that a client has may be gone after a request that fails. -/
theorem watcher_lost : ¬ ∀ (now : Instant) (r : Request) (c : Cafe),
    Route.ofPath? r.path = some .watch → r.method = .get → 400 ≤ (c.answer now r).1.status →
    ∀ client id, c.watchers.slots.get? client = some id →
      (c.answer now r).2.watchers.slots.get? client = some id := by
  intro stays
  have current : unreadable.watchers.slots.get? "bob" = some 0 := by decide +kernel
  have left : (unreadable.answer .epoch bobWatches).2.watchers.slots.get? "bob" ≠ some 0 := by
    decide +kernel
  exact left (stays .epoch bobWatches unreadable route_bobWatches rfl bobWatches_fails "bob" 0
    current)

end Cafe

end Relay
