import Relay.Proofs.Cafe.Exchange
import Relay.Proofs.Cafe.History
import Relay.Proofs.Notify.Worker

/-!
# No lost wake-up

A client that watches its inbox is told of a message whether it came before, during or after the
opening of the watch (`Exchange.no_lost_wakeup`): a watch subscribes before it lists the inbox, and
a delivery writes to the inbox before it submits the client. The invariant is `Exchange.Awake`: the
subscription has been told, or the worker will still come to the submission.
-/

namespace Relay

/-! ### Messages that wait -/

namespace Cafe

def Mailed (c : Cafe) (client : String) : Prop :=
  ∃ id row, c.records.messages.get? (id, client) = some row

variable {c c' : Cafe} {client : String}

theorem mailed_putMessage {m : Message} (put : c.putMessage m = .ok c') : c'.Mailed m.client := by
  rw [Task.putMessage_eq_ok put]
  exact ⟨m.id, _, (Table.get?_put _ _ _ _).trans (if_pos rfl)⟩

theorem Mailed.step (h : c.Mailed client) (t : Task) (now : Instant) :
    (t.step now c).2.Mailed client := by
  obtain ⟨id, row, found⟩ := h
  rcases Task.records_step t now c with ⟨d, id', c', rfl, put, goes⟩ | ⟨-, messages, -⟩
  · rw [goes, Task.putMessage_eq_ok put]
    by_cases same : (id, client) = ((d.message now id').id, (d.message now id').client)
    · exact ⟨id, _, (Table.get?_put _ _ _ _).trans (if_pos same)⟩
    · exact ⟨id, row, (Table.get?_put _ _ _ _).trans ((if_neg same).trans found)⟩
  · exact ⟨id, row, by rw [messages]; exact found⟩

theorem mailed_of_recorded {t : Task} {now : Instant} {d : Delivery}
    (h : ∀ d, t.recorded? = some d → c.Mailed d.recipient)
    (recorded : (t.step now c).1.recorded? = some d) : (t.step now c).2.Mailed d.recipient := by
  rcases Task.records_step t now c with ⟨d', id, c', rfl, put, goes⟩ | ⟨same, -, -⟩
  · rw [goes] at recorded ⊢
    cases recorded
    exact mailed_putMessage put
  · rw [same] at recorded
    exact (h d recorded).step t now

theorem not_mailed_of_inbox (listed : c.inbox client = .ok []) : ¬ c.Mailed client := by
  rintro ⟨id, row, found⟩
  have mem : ((id, client), row) ∈ c.records.messageRows client :=
    Records.mem_messageRows.2 ⟨found, rfl⟩
  cases rows : c.messagesOf client with
  | error e =>
    rw [inbox, rows] at listed
    cases listed
  | ok ms =>
    rw [inbox, rows] at listed
    cases listed
    have none := mapM_eq_ok_iff.1 (Task.next_of_checked rows)
    rw [List.map_nil, List.map_eq_nil_iff] at none
    rw [none] at mem
    cases mem

end Cafe

/-! ### What holds in an exchange -/

def Watch.Stage.subscription? : Watch.Stage → Option SubscriptionId
  | .list id | .push id | .finished (.ok id) => some id
  | _ => none

namespace Exchange

/-- A subscription has been given a notice for a client since it was made. -/
def Told (σ : Exchange) (id : SubscriptionId) (client : String) : Prop :=
  ∃ n : Notice, n.client = client ∧
    (n ∈ σ.cafe.watchers.noticesOf id ∨ (id, n) ∈ σ.received)

variable {σ τ : Exchange} {id : SubscriptionId} {client : String} {k : Nat}

/-- The worker will still come to a submission, and does not miss the subscription then. -/
def Awaits (σ : Exchange) (k : Nat) (id : SubscriptionId) : Prop :=
  σ.cafe.notifier.attempted ≤ k ∧ ∀ client ticket since,
    σ.cafe.notifier.phase = .telling client ticket since → k = σ.cafe.notifier.attempted →
    ∃ send s, ticket = some send ∧ σ.cafe.watchers.sends.get? send = some s ∧ s.state = .held ∧
      s.subscription = id

structure Awake (σ : Exchange) : Prop where
  consistent : σ.cafe.watchers.Consistent
  watching : ∀ client stage, (client, stage) ∈ σ.watches → ∀ id, stage.subscription? = some id →
    σ.cafe.watchers.Belongs id client
  /-- Room is kept only where a reader has taken a notice. -/
  granting : ∀ id client, σ.cafe.watchers.IsGranting id client →
    ∃ n : Notice, n.client = client ∧ (id, n) ∈ σ.received
  recorded : ∀ t ∈ σ.traffic.tasks, ∀ d, t.recorded? = some d → σ.cafe.Mailed d.recipient
  mailed : ∀ s ∈ σ.accepted, σ.cafe.Mailed s.client
  submitted : ∀ s ∈ σ.accepted, ∃ d id,
    σ.traffic.tasks[s.place]? = some (.deliver d (.finished (.ok (.queued id)))) ∧
      d.recipient = s.client
  lane : ∃ done, done.length = σ.cafe.notifier.attempted ∧
    σ.accepted.map Submission.client = done ++ σ.cafe.notifier.lane
  told : ∀ k s id, σ.accepted[k]? = some s → (s.client, .finished (.ok id)) ∈ σ.watches →
    σ.cafe.watchers.slots.get? s.client = some id → σ.Told id s.client ∨ σ.Awaits k id

theorem awake_start (config : Config) : (start config).Awake where
  consistent := by
    constructor
    · intro client id slot
      cases slot
    · intro id c there
      cases there
    · intro send s there
      cases there
  watching := fun _ _ mem => nomatch mem
  granting := by
    rintro id client ⟨c, there, -⟩
    cases there
  recorded := fun _ mem => nomatch mem
  mailed := fun _ mem => nomatch mem
  submitted := fun _ mem => nomatch mem
  lane := ⟨[], rfl, rfl⟩
  told := by
    intro k s id found
    cases found

theorem inHand_of_awaits (h : σ.Awake) {s : Submission} {rest : List String}
    (found : σ.accepted[k]? = some s) (front : σ.cafe.notifier.lane = client :: rest)
    (now : k = σ.cafe.notifier.attempted) : s.client = client := by
  obtain ⟨done, length, split⟩ := h.lane
  have mapped : (σ.accepted.map Submission.client)[k]? = some s.client := by
    rw [List.getElem?_map, found]
    rfl
  rw [split, front, now, ← length, List.getElem?_append_right (Nat.le_refl _),
    Nat.sub_self, List.getElem?_cons_zero, Option.some.injEq] at mapped
  exact mapped.symm

/-- What is not a step of a request changes neither the inboxes nor what was submitted. -/
theorem awake_of_keeps (h : σ.Awake) (c : Cafe) {watches : List (String × Watch.Stage)}
    {received taken : List (SubscriptionId × Notice)} {tried : List SendId}
    (records : c.records = σ.cafe.records)
    (keeps : Watchers.Keeps taken tried σ.cafe.watchers c.watchers)
    (got : ∀ p, p ∈ σ.received ∨ p ∈ taken → p ∈ received)
    (lane : ∃ done, done.length = c.notifier.attempted ∧
      σ.accepted.map Submission.client = done ++ c.notifier.lane)
    (same : τ = { σ.withCafe c with watches, received })
    (watching : ∀ client stage, (client, stage) ∈ watches → (client, stage) ∈ σ.watches ∨
      (∀ id, stage.subscription? = some id → c.watchers.Belongs id client) ∧
      ∀ id s, stage = .finished (.ok id) → s ∈ σ.accepted → s.client = client →
        c.watchers.slots.get? client = some id → τ.Told id client)
    (awaits : ∀ k s id, σ.accepted[k]? = some s → c.watchers.slots.get? s.client = some id →
      σ.cafe.watchers.slots.get? s.client = some id → σ.Awaits k id →
      τ.Told id s.client ∨ τ.Awaits k id) : τ.Awake := by
  subst same
  refine ⟨keeps.consistent, ?_, ?_, ?_, ?_, h.submitted, lane, ?_⟩
  · intro client stage mem id made
    rcases watching client stage mem with old | ⟨belongs, -⟩
    · exact keeps.belongs id client (h.watching client stage old id made)
    · exact belongs id made
  · intro id client grants
    rcases keeps.granting id client grants with old | ⟨n, own, mem⟩
    · obtain ⟨n, own, mem⟩ := h.granting id client old
      exact ⟨n, own, got _ (.inl mem)⟩
    · exact ⟨n, own, got _ (.inr mem)⟩
  · intro t mem d recorded
    obtain ⟨key, row, found⟩ := h.recorded t mem d recorded
    exact ⟨key, row, (congrArg (·.messages.get? (key, d.recipient)) records).trans found⟩
  · intro s mem
    obtain ⟨key, row, found⟩ := h.mailed s mem
    exact ⟨key, row, (congrArg (·.messages.get? (key, s.client)) records).trans found⟩
  · intro k s id found watched slot
    rcases watching _ _ watched with old | ⟨-, new⟩
    · have opened := (h.watching _ _ old id rfl).opened
      have slot' := keeps.current s.client id opened slot
      rcases h.told k s id found old slot' with ⟨n, own, given⟩ | waits
      · refine .inl ⟨n, own, ?_⟩
        rcases given with mem | mem
        · rcases keeps.notices s.client id n opened slot mem with mem | mem
          · exact .inl mem
          · exact .inr (got _ (.inr mem))
        · exact .inr (got _ (.inl mem))
      · exact awaits k s id found slot slot' waits
    · exact .inl (new id s rfl (List.mem_of_getElem? found) rfl slot)

theorem Awaits.keep (h : σ.Awaits k id)
    (attempted : τ.cafe.notifier.attempted = σ.cafe.notifier.attempted)
    (phase : τ.cafe.notifier.phase = σ.cafe.notifier.phase)
    (held : ∀ send s, σ.cafe.watchers.sends.get? send = some s → s.state = .held →
      τ.cafe.watchers.sends.get? send = some s) : τ.Awaits k id := by
  obtain ⟨ahead, telling⟩ := h
  refine ⟨attempted ▸ ahead, ?_⟩
  intro client ticket since now front
  obtain ⟨send, s, rfl, found, state, there⟩ :=
    telling client ticket since (phase ▸ now) (attempted ▸ front)
  exact ⟨send, s, rfl, held send s found state, state, there⟩

/-- Nor do watchers and their readers hold up the worker. -/
theorem awake_of_calm (h : σ.Awake) (c : Cafe) {watches : List (String × Watch.Stage)}
    {received taken : List (SubscriptionId × Notice)} (records : c.records = σ.cafe.records)
    (keeps : Watchers.Keeps taken [] σ.cafe.watchers c.watchers)
    (attempted : c.notifier.attempted = σ.cafe.notifier.attempted)
    (phase : c.notifier.phase = σ.cafe.notifier.phase)
    (queue : c.notifier.queue = σ.cafe.notifier.queue)
    (got : ∀ p, p ∈ σ.received ∨ p ∈ taken → p ∈ received)
    (same : τ = { σ.withCafe c with watches, received })
    (watching : ∀ client stage, (client, stage) ∈ watches → (client, stage) ∈ σ.watches ∨
      (∀ id, stage.subscription? = some id → c.watchers.Belongs id client) ∧
      ∀ id s, stage = .finished (.ok id) → s ∈ σ.accepted → s.client = client →
        c.watchers.slots.get? client = some id → τ.Told id client) : τ.Awake := by
  apply awake_of_keeps h c records keeps got _ same watching
  · intro k s id _ _ _ waits
    subst same
    exact .inr (waits.keep attempted phase fun send s => keeps.held send s (by simp))
  · obtain ⟨done, length, split⟩ := h.lane
    refine ⟨done, length.trans attempted.symm, split.trans ?_⟩
    simp only [Notifier.lane, Notifier.inHand, phase, queue]

theorem awake_clock (h : σ.Awake) {n : Notifier WatchTicket}
    (attempted : n.attempted = σ.cafe.notifier.attempted)
    (phase : n.phase = σ.cafe.notifier.phase) (queue : n.queue = σ.cafe.notifier.queue) :
    (σ.withCafe { σ.cafe with notifier := n }).Awake :=
  awake_of_calm h { σ.cafe with notifier := n } rfl (.refl h.consistent) attempted phase queue
    (fun _ mem => mem.resolve_right (List.not_mem_nil)) rfl fun _ _ mem => .inl mem

theorem awake_receive (h : σ.Awake) (id : SubscriptionId) : (σ.step (.receive id)).Awake := by
  simp only [step, Cafe.receive]
  cases took : σ.cafe.watchers.receive id with
  | none => exact h
  | some p =>
    obtain ⟨got, r⟩ := p
    simp only [Option.map_some]
    rcases Watchers.keeps_receive h.consistent took with ⟨n, rfl, keeps⟩ | ⟨other, rfl⟩
    · apply awake_of_calm h { σ.cafe with watchers := r } rfl keeps rfl rfl rfl _ rfl
      · intro _ _ mem
        exact .inl mem
      · intro p mem
        exact List.mem_append.2 mem
    · cases got with
      | notice n => exact absurd rfl (other n)
      | _ => exact h

theorem awake_close (h : σ.Awake) (id : SubscriptionId) : (σ.step (.close id)).Awake :=
  awake_of_calm h (σ.cafe.unsubscribe id) rfl (Watchers.keeps_unsubscribe h.consistent id)
    rfl rfl rfl (fun _ mem => mem.resolve_right (List.not_mem_nil)) rfl fun _ _ mem => .inl mem

theorem awake_watch (h : σ.Awake) (client : String) : (σ.step (.watch client)).Awake := by
  apply awake_of_calm h σ.cafe rfl (.refl h.consistent) rfl rfl rfl
    (fun _ mem => mem.resolve_right (List.not_mem_nil)) rfl
  intro client' stage mem
  rcases List.mem_append.1 mem with old | new
  · exact .inl old
  · cases List.mem_singleton.1 new
    refine .inr ⟨?_, ?_⟩
    · intro id made
      cases made
    · intro id s finished
      cases finished

theorem awake_stage (h : σ.Awake) {place : Nat} {stage : Watch.Stage} (c : Cafe)
    (records : c.records = σ.cafe.records) (notifier : c.notifier = σ.cafe.notifier)
    (keeps : Watchers.Keeps [] [] σ.cafe.watchers c.watchers)
    (same : τ = { σ.withCafe c with watches := σ.watches.set place (client, stage) })
    (belongs : ∀ id, stage.subscription? = some id → c.watchers.Belongs id client)
    (told : ∀ id s, stage = .finished (.ok id) → s ∈ σ.accepted → s.client = client →
      c.watchers.slots.get? client = some id → τ.Told id client) : τ.Awake := by
  apply awake_of_calm h c records keeps (by rw [notifier]) (by rw [notifier]) (by rw [notifier])
    (fun _ mem => mem.resolve_right (List.not_mem_nil)) same
  intro client' stage' mem
  rcases List.mem_or_eq_of_mem_set mem with old | new
  · exact .inl old
  · cases new
    exact .inr ⟨belongs, told⟩

/-- A watch request subscribes before it lists the inbox: if the inbox is empty then, no submission
for the client was made before, and if it is not, the subscription is given a notice. -/
theorem awake_advance (h : σ.Awake) (place : Nat) (now : Instant) :
    (σ.step (.advance place now)).Awake := by
  cases there : σ.watches[place]? with
  | none =>
    simp only [step, there]
    exact h
  | some p =>
    obtain ⟨client, stage⟩ := p
    have mem : (client, stage) ∈ σ.watches := List.mem_of_getElem? there
    have mine := h.watching client stage mem
    have calm : Watchers.Keeps [] [] σ.cafe.watchers σ.cafe.watchers := .refl h.consistent
    simp only [step, there]
    cases stage with
    | check =>
      simp only [Watch.step]
      split
      · exact awake_stage h σ.cafe rfl rfl calm rfl (by simp [Watch.Stage.subscription?]) (by simp)
      · exact awake_stage h σ.cafe rfl rfl calm rfl (by simp [Watch.Stage.subscription?]) (by simp)
    | subscribe =>
      have keeps := Watchers.keeps_subscribe h.consistent client
      apply awake_stage h (σ.cafe.subscribe client).2 rfl rfl keeps rfl
      · intro id made
        cases made
        exact σ.cafe.watchers.belongs_subscribe client
      · intro id s finished
        cases finished
    | list id =>
      simp only [Watch.step]
      split
      · next listed =>
        apply awake_stage h σ.cafe rfl rfl calm rfl
        · intro id' made
          cases made
          exact mine id rfl
        · intro id' s _ submitted own
          have mailed := h.mailed s submitted
          rw [own] at mailed
          exact absurd mailed (Cafe.not_mailed_of_inbox listed)
      · apply awake_stage h σ.cafe rfl rfl calm rfl
        · intro id' made
          cases made
          exact mine id rfl
        · simp
      · have keeps := Watchers.keeps_unsubscribe h.consistent id
        exact awake_stage h (σ.cafe.unsubscribe id) rfl rfl keeps rfl
          (by simp [Watch.Stage.subscription?]) (by simp)
    | push id =>
      have belongs := mine id rfl
      have keeps := Watchers.keeps_push h.consistent ⟨client, now⟩ belongs
      apply awake_stage h (σ.cafe.push id ⟨client, now⟩) rfl rfl keeps rfl
      · intro id' made
        cases made
        exact keeps.belongs id client belongs
      · rintro id' s ⟨⟩ _ _ slot
        have slot := keeps.current client id belongs.opened slot
        rcases Watchers.told_of_push h.consistent ⟨client, now⟩ slot with ⟨n, given, own⟩ | grants
        · exact ⟨n, own, .inl given⟩
        · obtain ⟨n, own, mem⟩ := h.granting id client grants
          exact ⟨n, own, .inr mem⟩
    | finished r =>
      apply awake_of_calm h σ.cafe rfl calm rfl rfl rfl
        (fun _ mem => mem.resolve_right (List.not_mem_nil)) rfl
      intro client' stage' mem'
      rcases List.mem_or_eq_of_mem_set mem' with old | new
      · exact .inl old
      · cases new
        exact .inl mem

/-! ### Steps of the worker -/

theorem awake_turn (h : σ.Awake) {n : Notifier WatchTicket} {r : Watchers} (tried : List SendId)
    (keeps : Watchers.Keeps [] tried σ.cafe.watchers r)
    (lane : ∃ done, done.length = n.attempted ∧
      σ.accepted.map Submission.client = done ++ n.lane)
    (awaits : ∀ k s id, σ.accepted[k]? = some s →
      σ.cafe.watchers.slots.get? s.client = some id → σ.Awaits k id →
      (σ.withCafe { σ.cafe with notifier := n, watchers := r }).Told id s.client ∨
        (σ.withCafe { σ.cafe with notifier := n, watchers := r }).Awaits k id) :
    (σ.withCafe { σ.cafe with notifier := n, watchers := r }).Awake := by
  apply awake_of_keeps h { σ.cafe with notifier := n, watchers := r } rfl keeps
    (fun _ mem => mem.resolve_right (List.not_mem_nil)) lane rfl
  · intro _ _ mem
    exact .inl mem
  · intro k s id found _ slot waits
    exact awaits k s id found slot waits

/-- The attempt for a submission gives its subscription a notice, unless it was given one. -/
theorem given_of_awaits (h : σ.Awake) (waits : σ.Awaits k id)
    (front : k = σ.cafe.notifier.attempted) {told : String} {send : SendId} {since : Nat}
    (telling : σ.cafe.notifier.phase = .telling told (some send) since)
    (slot : σ.cafe.watchers.slots.get? client = some id) :
    ∃ n : Notice, n.client = client ∧
      (n ∈ (σ.cafe.watchers.attempt send).noticesOf id ∨ (id, n) ∈ σ.received) := by
  obtain ⟨-, waits⟩ := waits
  obtain ⟨send', s, ticket, found, held, rfl⟩ := waits told (some send) since telling front
  cases ticket
  obtain ⟨c, there, own⟩ := h.consistent.slots client s.subscription slot
  rcases Watchers.told_of_attempt h.consistent found held there with ⟨n, given, same⟩ | grants
  · exact ⟨n, same.trans own, .inl given⟩
  · obtain ⟨n, same, mem⟩ := h.granting s.subscription c.client grants
    exact ⟨n, same.trans own, .inr mem⟩

theorem lane_endAttempt (h : σ.Awake) {told : String} {ticket : WatchTicket} {since : Nat}
    (telling : σ.cafe.notifier.phase = .telling told ticket since) :
    ∃ done, done.length = σ.cafe.notifier.endAttempt.attempted ∧
      σ.accepted.map Submission.client = done ++ σ.cafe.notifier.endAttempt.lane := by
  obtain ⟨done, length, split⟩ := h.lane
  refine ⟨done ++ [told], ?_, ?_⟩
  · rw [List.length_append, length]
    rfl
  · rw [split, List.append_assoc, Notifier.lane_of_telling telling]
    rfl

theorem awake_works (h : σ.Awake) {date : Instant} {n : Notifier WatchTicket} {r : Watchers}
    (works : Notifier.Works date σ.cafe.notifier σ.cafe.watchers n r) :
    (σ.withCafe { σ.cafe with notifier := n, watchers := r }).Awake := by
  obtain ⟨done, length, split⟩ := h.lane
  cases works with
  | rests _ lane attempted apart =>
    refine awake_turn h [] (.refl h.consistent) ⟨done, length.trans attempted.symm, ?_⟩ ?_
    · rw [lane]
      exact split
    · intro k s id _ _ waits
      refine .inr ⟨attempted ▸ waits.1, ?_⟩
      intro client ticket since telling
      exact absurd telling (apart client ticket since)
  | finds client since send _ taken found =>
    obtain ⟨keeps, current, looked, made⟩ := Watchers.keeps_lookUp h.consistent found
    have lane := Notifier.lane_of_taken taken
    refine awake_turn h [] keeps ⟨done, length, by rw [split, lane]; rfl⟩ ?_
    intro k s id there slot waits
    refine .inr ⟨waits.1, ?_⟩
    rintro _ _ _ ⟨⟩ front
    rw [inHand_of_awaits h there lane front, looked, Option.some.injEq] at slot
    exact ⟨send, _, rfl, made, rfl, slot⟩
  | misses client since taken missed =>
    have lane := Notifier.lane_of_taken taken
    refine awake_turn h [] (.refl h.consistent) ⟨done, length, by rw [split, lane]; rfl⟩ ?_
    intro k s id there slot waits
    refine .inr ⟨waits.1, ?_⟩
    rintro _ _ _ ⟨⟩ front
    rw [inHand_of_awaits h there lane front] at slot
    rw [Watchers.lookUp, slot] at missed
    cases missed
  | waits client send since telling =>
    refine awake_turn h [send] (Watchers.keeps_attempt h.consistent send)
      ⟨done, length, split⟩ ?_
    intro k s id there slot waits
    by_cases front : k = σ.cafe.notifier.attempted
    · exact .inl (given_of_awaits h waits front telling slot)
    · refine .inr ⟨waits.1, ?_⟩
      intro _ _ _ _ front'
      exact absurd front' front
  | fails client since telling =>
    refine awake_turn h [] (.refl h.consistent) (lane_endAttempt h telling) ?_
    intro k s id there slot waits
    refine .inr ⟨?_, ?_⟩
    · apply Nat.lt_of_le_of_ne waits.1
      intro front
      obtain ⟨send, s, ticket, -⟩ := waits.2 client none since telling front.symm
      cases ticket
    · rintro _ _ _ ⟨⟩
  | ends client send since telling =>
    have tries := Watchers.keeps_attempt h.consistent send
    have keeps := tries.trans (Watchers.keeps_forget tries.consistent send)
    refine awake_turn h _ keeps (lane_endAttempt h telling) ?_
    intro k s id there slot waits
    by_cases front : k = σ.cafe.notifier.attempted
    · obtain ⟨n, own, given⟩ := given_of_awaits h waits front telling slot
      rw [← Watchers.noticesOf_forget _ send] at given
      exact .inl ⟨n, own, given⟩
    · refine .inr ⟨Nat.lt_of_le_of_ne waits.1 (Ne.symm front), ?_⟩
      rintro _ _ _ ⟨⟩

theorem awake_work (h : σ.Awake) (now : Instant) : (σ.step (.work now)).Awake :=
  awake_works h (Notifier.works_step now σ.cafe.notifier σ.cafe.watchers)

/-! ### Steps of requests -/

theorem awake_traffic (h : σ.Awake) (T : Traffic)
    (watchers : T.cafe.watchers = σ.cafe.watchers) (notifier : T.cafe.notifier = σ.cafe.notifier)
    (recorded : ∀ t ∈ T.tasks, ∀ d, t.recorded? = some d → T.cafe.Mailed d.recipient)
    (mailed : ∀ s ∈ σ.accepted, T.cafe.Mailed s.client)
    (submitted : ∀ s ∈ σ.accepted, ∃ d id,
      T.tasks[s.place]? = some (.deliver d (.finished (.ok (.queued id)))) ∧
        d.recipient = s.client) : Awake { σ with traffic := T } where
  consistent := watchers ▸ h.consistent
  watching := by
    intro client stage mem id made
    exact watchers ▸ h.watching client stage mem id made
  granting := watchers ▸ h.granting
  recorded := recorded
  mailed := mailed
  submitted := submitted
  lane := notifier ▸ h.lane
  told := by
    intro k s id found watched slot
    have told := h.told k s id found watched (watchers ▸ slot)
    unfold Told Awaits at told ⊢
    rw [← watchers, ← notifier] at told
    exact told

theorem awake_arrive (h : σ.Awake) (o : Order) : (σ.step (.request (.arrive o))).Awake := by
  simp only [step, submission?, Option.toList_none, List.append_nil]
  refine awake_traffic h _ rfl rfl ?_ h.mailed ?_
  · intro t mem d recorded
    rcases List.mem_append.1 mem with old | new
    · exact h.recorded t old d recorded
    · rw [List.mem_singleton.1 new] at recorded
      cases o <;> cases recorded
  · intro s mem
    obtain ⟨d, id, there, own⟩ := h.submitted s mem
    have inside := (List.getElem?_eq_some_iff.1 there).1
    exact ⟨d, id, (List.getElem?_append_left inside).trans there, own⟩

theorem submitted_advance (h : σ.Awake) {place : Nat} {t : Task}
    (next : σ.traffic.tasks[place]? = some t) (now : Instant) {s : Submission}
    (mem : s ∈ σ.accepted) : ∃ d id, (σ.traffic.advance place now t).tasks[s.place]? =
      some (.deliver d (.finished (.ok (.queued id)))) ∧ d.recipient = s.client := by
  obtain ⟨d, id, there, own⟩ := h.submitted s mem
  refine ⟨d, id, ?_, own⟩
  rw [Traffic.tasks_advance next]
  split
  · next here =>
    rw [← here, next, Option.some.injEq] at there
    rw [there]
    rfl
  · exact there

theorem recorded_advance (h : σ.Awake) {place : Nat} {t : Task}
    (next : σ.traffic.tasks[place]? = some t) (now : Instant) :
    ∀ t' ∈ (σ.traffic.advance place now t).tasks, ∀ d, t'.recorded? = some d →
      (σ.traffic.advance place now t).cafe.Mailed d.recipient := by
  intro t' mem d recorded
  rcases List.mem_or_eq_of_mem_set mem with old | rfl
  · exact (h.recorded t' old d recorded).step t now
  · exact Cafe.mailed_of_recorded (h.recorded t (List.mem_of_getElem? next)) recorded

/-- A delivery writes to the inbox before it submits the client. -/
theorem awake_submit (h : σ.Awake) {place : Nat} {now : Instant} {d : Delivery} {id : ContentId}
    (next : σ.traffic.tasks[place]? = some (.deliver d (.announce id)))
    (room : (σ.cafe.notifier.submit d.recipient).1 = true) :
    Awake { σ with
      traffic := σ.traffic.advance place now (.deliver d (.announce id))
      accepted := σ.accepted ++ [⟨place, d.recipient⟩] } := by
  have mail : σ.cafe.Mailed d.recipient := h.recorded _ (List.mem_of_getElem? next) d rfl
  obtain ⟨done, length, split⟩ := h.lane
  have added := Notifier.lane_submit σ.cafe.notifier d.recipient
  rw [room, if_pos rfl] at added
  have attempted := Notifier.attempted_submit σ.cafe.notifier d.recipient
  have phase := Notifier.phase_submit σ.cafe.notifier d.recipient
  refine ⟨h.consistent, h.watching, h.granting, recorded_advance h next now, ?_, ?_, ?_, ?_⟩
  · exact List.forall_mem_append.2 ⟨h.mailed, List.forall_mem_singleton.2 mail⟩
  · intro s mem
    rcases List.mem_append.1 mem with old | new
    · exact submitted_advance h next now old
    · rw [List.mem_singleton.1 new]
      exact ⟨d, id, (Traffic.tasks_advance next now place).trans (if_pos rfl), rfl⟩
  · refine ⟨done, length.trans attempted.symm, ?_⟩
    rw [List.map_append, split, List.append_assoc]
    exact congrArg (done ++ ·) added.symm
  · intro k s id found watched slot
    rw [List.getElem?_append] at found
    split at found
    -- a later submission does not change where the worker is
    · rcases h.told k s id found watched slot with given | waits
      · exact .inl given
      · exact .inr (waits.keep attempted phase fun _ _ there _ => there)
    · next out =>
      -- the submission is the last one, so the worker does not have it in hand
      have total := congrArg List.length split
      rw [List.length_map, List.length_append, length] at total
      refine .inr ⟨?_, ?_⟩
      · exact attempted ▸ (by omega)
      · intro client ticket since telling front
        have front : k = σ.cafe.notifier.attempted := front.trans attempted
        rw [Notifier.lane_of_telling (phase.symm.trans telling), List.length_cons] at total
        omega

theorem awake_request (h : σ.Awake) (e : Traffic.Event) : (σ.step (.request e)).Awake := by
  cases e with
  | arrive o => exact awake_arrive h o
  | disturb faults registry mailbox =>
    simp only [step, submission?, Option.toList_none, List.append_nil]
    exact awake_traffic h _ rfl rfl h.recorded h.mailed h.submitted
  | advance place now =>
    cases next : σ.traffic.tasks[place]? with
    | none =>
      simp only [step, submission?, Traffic.step, next, Option.toList_none, List.append_nil]
      exact h
    | some t =>
      have mailed : ∀ s ∈ σ.accepted, (σ.traffic.advance place now t).cafe.Mailed s.client := by
        intro s mem
        exact (h.mailed s mem).step t now
      have calm : (t.step now σ.cafe).2.watchers = σ.cafe.watchers →
          (t.step now σ.cafe).2.notifier = σ.cafe.notifier →
          Awake { σ with traffic := σ.traffic.advance place now t } := by
        intro watchers notifier
        exact awake_traffic h _ watchers notifier (recorded_advance h next now) mailed
          fun s mem => submitted_advance h next now mem
      rcases Task.submits_step t now σ.cafe with ⟨d, id, rfl, goes⟩ | ⟨other, watchers, notifier⟩
      · cases room : (σ.cafe.notifier.submit d.recipient).1 with
        | true =>
          simp only [step, submission?, Traffic.step, next, room, if_true, Option.toList_some]
          exact awake_submit h next room
        | false =>
          simp only [step, submission?, Traffic.step, next, room]
          rw [if_neg (by simp), Option.toList_none, List.append_nil]
          exact calm rfl (Notifier.submit_eq_self room)
      · have none : σ.submission? (.advance place now) = none := by
          simp only [submission?, next]
          split
          · next d id there => exact absurd (Option.some.inj there) (other d id)
          · rfl
        simp only [step, none, Traffic.step, next, Option.toList_none, List.append_nil]
        exact calm watchers notifier

/-! ### Runs -/

theorem awake_step (h : σ.Awake) (e : Event) : (σ.step e).Awake := by
  cases e with
  | request e => exact awake_request h e
  | watch client => exact awake_watch h client
  | advance place now => exact awake_advance h place now
  | receive id => exact awake_receive h id
  | close id => exact awake_close h id
  | work now => exact awake_work h now
  | pass duration => exact awake_clock h rfl rfl rfl
  | stop => exact awake_clock h rfl rfl rfl
  | release => exact awake_clock h rfl rfl rfl

theorem awake_run (h : σ.Awake) (events : List Event) : (σ.run events).Awake := by
  induction events generalizing σ with
  | nil => exact h
  | cons e rest ih => exact ih (awake_step h e)

/-- If a delivery has queued its message, the queue took its submission and the worker is done with
it, and a watch of the recipient was opened whose subscription is still the current one, then that
subscription has been given a notice, whichever of the two came first. An attempt that timed out is
no exception: it waited because there were notices enough. -/
theorem no_lost_wakeup (config : Config) (events : List Event) {k w : Nat} {s : Submission}
    {d : Delivery} {id : ContentId} {subscription : SubscriptionId}
    (taken : ((start config).run events).accepted[k]? = some s)
    (queued : ((start config).run events).traffic.tasks[s.place]? =
      some (.deliver d (.finished (.ok (.queued id)))))
    (processed : k < ((start config).run events).cafe.notifier.attempted)
    (answered : ((start config).run events).watches[w]? =
      some (d.recipient, .finished (.ok subscription)))
    (current : ((start config).run events).cafe.watchers.isCurrent d.recipient subscription) :
    ((start config).run events).Told subscription d.recipient := by
  have awake := awake_run (awake_start config) events
  obtain ⟨d', id', there, own⟩ := awake.submitted s (List.mem_of_getElem? taken)
  rw [queued] at there
  cases there
  rw [own] at answered current ⊢
  have slot := eq_of_beq current
  rcases awake.told k s subscription taken (List.mem_of_getElem? answered) slot with given | waits
  · exact given
  · exact absurd waits.1 (Nat.not_le_of_lt processed)

/-! ### A message that comes while a watch is opened -/

/-- The watch finds the inbox empty, just before the message is put there. -/
def between : List Event :=
  [.request (.arrive (.register ⟨"bob", "", .epoch⟩)), .request (.arrive (.keep Traffic.leaf)),
    .request (.arrive (.deliver Traffic.linked)), .watch "bob"] ++
  [0, 1, 1, 2, 2, 2, 2, 2, 2, 2].map (fun place => .request (.advance place .epoch)) ++
  List.replicate 3 (.advance 0 .epoch) ++
  List.replicate 2 (.request (.advance 2 .epoch)) ++ List.replicate 3 (.work .epoch)

theorem between_answered :
    ((start {}).run between).watches[0]? = some ("bob", .finished (.ok 0)) := by
  have seen : (((start {}).run between).watches[0]?.map fun w =>
      (w.1, w.2.result?.map Except.toOption)) = some ("bob", some (some 0)) := by
    decide +kernel
  obtain ⟨⟨client, stage⟩, there, seen⟩ := Option.map_eq_some_iff.1 seen
  obtain ⟨rfl, result⟩ := Prod.mk.inj seen
  cases stage with
  | finished r =>
    cases r with
    | ok id =>
      cases result
      exact there
    | error e => cases result
  | _ => cases result

theorem between_told : ∃ d id,
    ((start {}).run between).accepted[0]? = some ⟨2, "bob"⟩ ∧
    ((start {}).run between).traffic.tasks[2]? =
      some (.deliver d (.finished (.ok (.queued id)))) ∧
    0 < ((start {}).run between).cafe.notifier.attempted ∧
    ((start {}).run between).watches[0]? = some (d.recipient, .finished (.ok 0)) ∧
    ((start {}).run between).cafe.watchers.isCurrent d.recipient 0 ∧
    ((start {}).run between).Told 0 d.recipient := by
  have taken : ((start {}).run between).accepted[0]? = some ⟨2, "bob"⟩ := by decide +kernel
  have processed : 0 < ((start {}).run between).cafe.notifier.attempted := by decide +kernel
  have current : ((start {}).run between).cafe.watchers.isCurrent "bob" 0 := by decide +kernel
  obtain ⟨d, id, queued, own⟩ :=
    (awake_run (awake_start {}) between).submitted ⟨2, "bob"⟩ (List.mem_of_getElem? taken)
  have own : d.recipient = "bob" := own
  have answered := between_answered
  rw [← own] at answered current
  exact ⟨d, id, taken, queued, processed, answered, current,
    no_lost_wakeup {} between taken queued processed answered current⟩

end Exchange

end Relay
