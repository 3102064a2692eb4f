import Relay.Proofs.Notify.WatchSteps

/-!
# The watch registry

Whatever the order of events, the slot of a client belongs to the subscription that was opened last
for it, unless that one was dropped, and a connection brings what was pushed on it or looked it up
while it was current, in the order in which it took them, as long as 64 bits are enough to count the
subscriptions (`Watchers.History.registered_run`). The invariant is `Watchers.Tracks`: slots,
connections and sends are what the log says.
-/

namespace Relay

namespace Watchers

variable {r r' : Watchers} {log es : Log} {id : SubscriptionId} {client : String} {send : SendId}
  {s : Send} {c : Connection} {n : Notice}

/-! ### What the log says of the state -/

/-- The slots and connections are those of the log. -/
structure Enrolled (r : Watchers) (log : Log) : Prop where
  opened : ∀ id client, .opened id client ∈ log → id < r.nextSubscription
  slots : ∀ client id, r.slots.get? client = some id ↔ log.IsCurrent client id
  connected : ∀ id client, (r.connections.get? id).map Connection.client = some client ↔
    .opened id client ∈ log ∧ .dropped id ∉ log

/-- A connection holds what it has taken and what was not read, and no send is in line twice. -/
structure Serves (log : Log) (id : SubscriptionId) (c : Connection) : Prop where
  buffered : (log.taken id).map Prod.snd = log.read id ++ c.buffer
  once : c.line.Nodup

def Served (r : Watchers) (log : Log) : Prop :=
  ∀ id c, r.connections.get? id = some c → Serves log id c

structure Sends (log : Log) (send : SendId) (s : Send) : Prop where
  found : .found send s.subscription s.notice ∈ log
  held : s.state = .held → ∀ id n, .tried send id n ∉ log
  waiting : s.state = .waiting →
    .tried send s.subscription s.notice ∈ log ∧ ∀ id n, .accepted send id n ∉ log

theorem sends_of_settled (found : .found send s.subscription s.notice ∈ log)
    (held : s.state ≠ .held) (waiting : s.state ≠ .waiting) : Sends log send s :=
  ⟨found, fun h => absurd h held, fun h => absurd h waiting⟩

structure Dispatched (r : Watchers) (log : Log) : Prop where
  found : ∀ send id n, .found send id n ∈ log → send < r.nextSend
  sends : ∀ send s, r.sends.get? send = some s → Sends log send s
  queued : r.Queued

structure Tracks (r : Watchers) (log : Log) : Prop where
  lawful : Lawful log
  enrolled : Enrolled r log
  served : Served r log
  dispatched : Dispatched r log

theorem tracks_empty : Tracks {} [] where
  lawful := .nil
  enrolled := {
    opened := fun _ _ mem => nomatch mem
    slots := fun _ _ => ⟨fun h => (nomatch h), fun h => nomatch h.1⟩
    connected := fun _ _ => ⟨fun h => (nomatch h), fun h => nomatch h.1⟩ }
  served := fun _ _ h => nomatch h
  dispatched := {
    found := fun _ _ _ mem => nomatch mem
    sends := fun _ _ h => nomatch h
    queued := fun _ _ _ h => nomatch h }

/-! ### What a step leaves alone -/

theorem Enrolled.keep (h : Enrolled r log) (quiet : ∀ e ∈ es, e.enrols = false)
    (clients : ∀ id, (r'.connections.get? id).map Connection.client =
      (r.connections.get? id).map Connection.client)
    (slots : r'.slots = r.slots) (next : r'.nextSubscription = r.nextSubscription) :
    Enrolled r' (log ++ es) where
  opened := by
    intro id client mem
    rw [next]
    exact h.opened id client ((Log.not_mem_append_of_quiet quiet rfl).1 mem)
  slots := by
    intro client id
    rw [slots, Log.isCurrent_append_of_quiet quiet]
    exact h.slots client id
  connected := by
    intro id client
    rw [clients, Log.not_mem_append_of_quiet quiet rfl, Log.not_mem_append_of_quiet quiet rfl]
    exact h.connected id client

theorem map_client_setConnection (there : r.connections.get? id = some c) {c' : Connection}
    (same : c'.client = c.client) (other : SubscriptionId) :
    ((r.setConnection id c').connections.get? other).map Connection.client =
      (r.connections.get? other).map Connection.client := by
  rw [setConnection, Table.get?_put]
  split
  · next here => rw [here, there, Option.map_some, Option.map_some, same]
  · rfl

/-- Entries about one subscription leave the others alone. -/
theorem Served.keep (h : Served r log) (id : SubscriptionId)
    (own : ∀ e ∈ es, e.subscription = id)
    (others : ∀ other, other ≠ id → r'.connections.get? other = r.connections.get? other)
    (serves : ∀ c, r'.connections.get? id = some c → Serves (log ++ es) id c) :
    Served r' (log ++ es) := by
  intro other c there
  by_cases away : other = id
  · subst away
    exact serves c there
  · have apart : ∀ e ∈ es, e.subscription ≠ other := by
      rintro e mem rfl
      exact away (own e mem)
    rw [others other away] at there
    obtain ⟨buffered, once⟩ := h other c there
    refine ⟨?_, once⟩
    rw [Log.taken_append, Log.read_append, Log.taken_eq_nil apart, Log.read_eq_nil apart,
      List.append_nil, List.append_nil]
    exact buffered

/-- Entries about other sends leave a send alone. -/
theorem Sends.keep (h : Sends log send s) (quiet : ∀ e ∈ es, e.send? ≠ some send) :
    Sends (log ++ es) send s := by
  have old : ∀ {e : Entry}, e.send? = some send → (e ∈ log ++ es ↔ e ∈ log) := by
    intro e about
    rw [List.mem_append, or_iff_left fun mem => quiet e mem about]
  refine ⟨List.mem_append_left _ h.found, fun held id n => ?_, fun waiting => ?_⟩
  · rw [old rfl]
    exact h.held held id n
  · obtain ⟨tried, fresh⟩ := h.waiting waiting
    refine ⟨List.mem_append_left _ tried, fun id n => ?_⟩
    rw [old rfl]
    exact fresh id n

/-- A step that leaves the sends alone. -/
theorem Dispatched.keep (h : Dispatched r log) (quiet : ∀ e ∈ es, e.send? = none)
    (sends : r'.sends = r.sends) (next : r'.nextSend = r.nextSend)
    (line : ∀ id c', r'.connections.get? id = some c' → ∀ send ∈ c'.line,
      ∃ c, r.connections.get? id = some c ∧ send ∈ c.line) :
    Dispatched r' (log ++ es) where
  found := by
    intro send id n mem
    rw [next]
    rcases List.mem_append.1 mem with mem | mem
    · exact h.found send id n mem
    · cases quiet _ mem
  sends := by
    intro send s known
    rw [sends] at known
    exact (h.sends send s known).keep fun e mem => by rw [quiet e mem]; simp
  queued := by
    intro id c' send there mem
    obtain ⟨c, there, mem⟩ := line id c' there send mem
    rw [sends]
    exact h.queued id c send there mem

/-- A step that changes the state of one send. -/
theorem Dispatched.put (h : Dispatched r log) {s' : Send} (known : r.sends.get? send = some s)
    (own : ∀ e ∈ es, e.send? = none ∨ e.send? = some send)
    (sends : r'.sends = r.sends.put send s') (next : r'.nextSend = r.nextSend)
    (fits : Sends (log ++ es) send s')
    (line : ∀ id c', r'.connections.get? id = some c' → ∀ w ∈ c'.line,
      w = send ∧ s'.subscription = id ∧ s'.state = .waiting ∨
        w ≠ send ∧ ∃ c, r.connections.get? id = some c ∧ w ∈ c.line) :
    Dispatched r' (log ++ es) where
  found := by
    intro w id n mem
    rw [next]
    rcases List.mem_append.1 mem with mem | mem
    · exact h.found w id n mem
    · rcases own _ mem with none_ | here
      · cases none_
      · cases here
        exact h.found send _ _ (h.sends send s known).found
  sends := by
    intro w s₁ there
    rw [sends, Table.get?_put] at there
    split at there
    · next same =>
      cases there
      exact same ▸ fits
    · next apart =>
      refine (h.sends w s₁ there).keep fun e mem => ?_
      rcases own e mem with none_ | here
      · rw [none_]
        simp
      · rw [here]
        exact fun same => apart (Option.some.inj same).symm
  queued := by
    intro id c' w there mem
    rw [sends, Table.get?_put]
    rcases line id c' there w mem with ⟨rfl, here, waits⟩ | ⟨apart, c, there, mem⟩
    · exact ⟨s', if_pos rfl, here, waits⟩
    · rw [if_neg apart]
      exact h.queued id c w there mem

theorem Dispatched.fresh (h : Dispatched r log) (id : SubscriptionId) (n : Notice) :
    .found r.nextSend id n ∉ log :=
  fun mem => Nat.lt_irrefl _ (h.found _ id n mem)

/-- A send that has just looked up its connection is not tried yet. -/
theorem Dispatched.find (h : Dispatched r log) (lawful : Lawful log) (id : SubscriptionId)
    (n : Notice) : Dispatched { r with
      sends := r.sends.put r.nextSend { subscription := id, notice := n }
      nextSend := r.nextSend + 1 } (log ++ [Entry.found r.nextSend id n]) where
  found := by
    intro w i m mem
    rcases List.mem_append.1 mem with mem | mem
    · exact Nat.lt_succ_of_lt (h.found w i m mem)
    · cases List.mem_singleton.1 mem
      exact Nat.lt_succ_self _
  sends := by
    intro w s known
    rw [Table.get?_put] at known
    split at known
    · next here =>
      cases known
      subst here
      refine ⟨List.mem_append_right _ List.mem_cons_self, fun _ i m mem => ?_,
        fun waits => by cases waits⟩
      exact h.fresh i m (lawful.found_of_tried (by simpa using mem))
    · next apart =>
      refine (h.sends w s known).keep ?_
      simpa [Entry.send?] using Ne.symm apart
  queued := by
    intro i c w there mem
    obtain ⟨s, known, own, waits⟩ := h.queued i c w there mem
    have started : w ≠ r.nextSend := by
      rintro rfl
      exact h.fresh _ _ (h.sends _ s known).found
    exact ⟨s, (Table.get?_put _ _ _ _).trans ((if_neg started).trans known), own, waits⟩

/-- A send that is forgotten waited for its own connection only. -/
theorem Dispatched.forget (h : Dispatched r log) (gone : Forgotten send r r') :
    Dispatched r' log where
  found := by
    intro w id n mem
    rw [gone.nextSend]
    exact h.found w id n mem
  sends := by
    intro w s known
    rw [gone.sends] at known
    split at known
    · cases known
    · exact h.sends w s known
  queued := by
    intro id c w there mem
    have old : w ≠ send ∧ ∃ c, r.connections.get? id = some c ∧ w ∈ c.line := by
      rcases gone.connections id with same | ⟨c', there', left⟩
      · rw [same] at there
        refine ⟨?_, c, there, mem⟩
        rintro rfl
        obtain ⟨s, known, rfl, -⟩ := h.queued id c w there mem
        have left := gone.own s known
        rw [same, there, Option.map_some, Option.some.injEq] at left
        rw [left, Connection.line_withdraw] at mem
        simp at mem
      · rw [left, Option.some.injEq] at there
        subst there
        rw [Connection.line_withdraw] at mem
        obtain ⟨mem, apart⟩ := List.mem_filter.1 mem
        exact ⟨of_decide_eq_true apart, c', there', mem⟩
    obtain ⟨apart, c', there', mem⟩ := old
    obtain ⟨s, known, own, waits⟩ := h.queued id c' w there' mem
    exact ⟨s, by rw [gone.sends, if_neg apart, known], own, waits⟩

/-! ### One connection -/

namespace Serves

variable {rest : List Notice}

/-- What comes in is buffered. -/
theorem taken_snoc (h : Serves log id c) {o : Offer} (taken : e.taken? id = some o)
    (read : e.read? id = none) :
    (Log.taken (log ++ [e]) id).map Prod.snd = Log.read (log ++ [e]) id ++ (c.buffer ++ [o.2]) := by
  rw [Log.taken_append, Log.read_append, List.map_append, h.buffered]
  simp [taken, read]

/-- What neither comes in nor is read leaves the buffer alone. -/
theorem still (h : Serves log id c) (taken : e.taken? id = none) (read : e.read? id = none) :
    (Log.taken (log ++ [e]) id).map Prod.snd = Log.read (log ++ [e]) id ++ c.buffer := by
  rw [Log.taken_snoc_of_none taken, Log.read_snoc_of_none read]
  exact h.buffered

theorem push (h : Serves log id c) (n : Notice) :
    Serves (log ++ [Entry.pushed id n]) id { c with buffer := c.buffer ++ [n] } :=
  ⟨h.taken_snoc (o := (none, n)) (if_pos rfl) rfl, h.once⟩

theorem take (h : Serves log id c) (first : c.buffer = n :: rest) :
    Serves (log ++ [Entry.received id n]) id { c with buffer := rest }.grant where
  buffered := by
    rw [Log.taken_append, Log.read_append, List.map_append, h.buffered, first]
    simp [Entry.taken?, Entry.read?]
  once := by
    rw [Connection.line_grant]
    exact h.once

theorem wait (h : Serves log id c) (fresh : send ∉ c.line) (n : Notice) :
    Serves (log ++ [Entry.tried send id n]) id { c with waiting := c.waiting ++ [send] } where
  buffered := h.still rfl rfl
  once := by
    rw [Connection.line, ← List.append_assoc]
    refine List.nodup_append.2 ⟨h.once, List.pairwise_singleton _ _, ?_⟩
    rintro w mem other new rfl
    exact fresh (List.mem_singleton.1 new ▸ mem)

/-- A send that room was kept for comes in. -/
theorem enter (h : Serves log id c) (send : SendId) (n : Notice) :
    Serves (log ++ [Entry.accepted send id n]) id
      { c with buffer := c.buffer ++ [n], granted := c.granted.filter (· ≠ send) } where
  buffered := h.taken_snoc (o := (some send, n)) (if_pos rfl) rfl
  once := h.once.sublist (List.filter_sublist.append_right _)

theorem accept (h : Serves log id c) (send : SendId) (n : Notice) :
    Serves (log ++ [Entry.tried send id n, Entry.accepted send id n]) id
      { c with buffer := c.buffer ++ [n] } := by
  have tried : Serves (log ++ [Entry.tried send id n]) id c := ⟨h.still rfl rfl, h.once⟩
  rw [List.append_cons]
  exact ⟨tried.taken_snoc (o := (some send, n)) (if_pos rfl) rfl, h.once⟩

theorem forget (h : Serves log id c) (send : SendId) : Serves log id (c.withdraw send) where
  buffered := by
    rw [Connection.buffer_withdraw]
    exact h.buffered
  once := by
    rw [Connection.line_withdraw]
    exact h.once.filter _

end Serves

/-! ### What is known of a state -/

namespace Tracks

theorem opened (h : Tracks r log) (there : r.connections.get? id = some c) :
    .opened id c.client ∈ log ∧ .dropped id ∉ log :=
  (h.enrolled.connected id c.client).1 (by rw [there, Option.map_some])

theorem distinct (h : Tracks r log) (few : r.nextSubscription ≤ 2 ^ 64) : r.Distinct := by
  intro id c current there numbered
  obtain ⟨slot, same⟩ := Option.filter_eq_some_iff.1 numbered
  have opened := h.enrolled.opened id c.client (h.opened there).1
  have opened' := h.enrolled.opened current c.client ((h.enrolled.slots _ _).1 slot).opened
  exact number_inj (Nat.lt_of_lt_of_le opened' few) (Nat.lt_of_lt_of_le opened few)
    (beq_iff_eq.1 same)

/-- A send that does not wait is in no line. -/
theorem ne_of_waits (h : Tracks r log) (there : r.connections.get? id = some c)
    (known : r.sends.get? send = some s) (other : s.state ≠ .waiting) :
    ∀ w ∈ c.line, w ≠ send := by
  rintro w mem rfl
  exact other (h.dispatched.queued.waits there mem known).2

theorem unaccepted (h : Tracks r log) (known : r.sends.get? send = some s)
    (held : s.state = .held) (id : SubscriptionId) (n : Notice) : .accepted send id n ∉ log :=
  fun mem => (h.dispatched.sends send s known).held held id n (h.lawful.tried_of_accepted mem)

end Tracks

/-! ### Subscriptions -/

theorem connections_subscribe (r : Watchers) (client : String) (id : SubscriptionId) :
    (r.subscribe client).2.connections.get? id =
      if id = r.nextSubscription then some { client } else r.connections.get? id :=
  Table.get?_put _ _ _ _

theorem slots_subscribe (r : Watchers) (client other : String) :
    (r.subscribe client).2.slots.get? other =
      if other = client then some r.nextSubscription else r.slots.get? other :=
  Table.get?_put _ _ _ _

theorem Enrolled.fresh (h : Enrolled r log) (client : String) :
    .opened r.nextSubscription client ∉ log :=
  fun mem => Nat.lt_irrefl _ (h.opened _ client mem)

theorem Enrolled.subscribe (h : Enrolled r log) (lawful : Lawful log) (client : String) :
    Enrolled (r.subscribe client).2 (log ++ [Entry.opened r.nextSubscription client]) := by
  have undropped : .dropped r.nextSubscription ∉ log := by
    intro mem
    obtain ⟨client', opened⟩ := lawful.opened_of_mem mem
    exact h.fresh client' opened
  refine ⟨fun id client' mem => ?opened, fun client' id => ?slots, fun id client' => ?connected⟩
  case opened =>
    rcases List.mem_append.1 mem with mem | mem
    · exact Nat.lt_succ_of_lt (h.opened id client' mem)
    · cases List.mem_singleton.1 mem
      exact Nat.lt_succ_self _
  case slots =>
    rw [slots_subscribe, Log.IsCurrent, Log.latest?_snoc_opened]
    by_cases same : client' = client
    · subst same
      rw [if_pos rfl, if_pos rfl]
      constructor
      · intro here
        refine ⟨here, ?_⟩
        cases here
        simpa using undropped
      · exact And.left
    · rw [if_neg same, if_neg (Ne.symm same), h.slots, Log.IsCurrent]
      simp
  case connected =>
    rw [connections_subscribe]
    by_cases same : id = r.nextSubscription
    · subst same
      rw [if_pos rfl, Option.map_some, Option.some.injEq]
      constructor
      · rintro rfl
        exact ⟨List.mem_append_right _ List.mem_cons_self, by simpa using undropped⟩
      · rintro ⟨mem, -⟩
        rcases List.mem_append.1 mem with mem | mem
        · exact absurd mem (h.fresh client')
        · cases List.mem_singleton.1 mem
          rfl
    · rw [if_neg same, h.connected]
      simp [same]

/-- Nothing has come to a subscription that is just opened. -/
theorem Served.subscribe (h : Served r log) (client : String)
    (absent : ∀ e ∈ log, e.subscription ≠ r.nextSubscription) :
    Served (r.subscribe client).2 (log ++ [Entry.opened r.nextSubscription client]) := by
  have taken : (log ++ [Entry.opened r.nextSubscription client]).taken r.nextSubscription = [] := by
    rw [Log.taken_append, Log.taken_eq_nil absent]
    rfl
  have read : (log ++ [Entry.opened r.nextSubscription client]).read r.nextSubscription = [] := by
    rw [Log.read_append, Log.read_eq_nil absent]
    rfl
  refine h.keep r.nextSubscription (by simp [Entry.subscription]) ?_ ?_
  · intro id away
    rw [connections_subscribe, if_neg away]
  · intro c there
    rw [connections_subscribe, if_pos rfl, Option.some.injEq] at there
    subst there
    exact ⟨by rw [taken, read]; rfl, List.nodup_nil⟩

theorem Tracks.subscribe (h : Tracks r log) (client : String) :
    Tracks (r.subscribe client).2 (log ++ [Entry.opened r.nextSubscription client]) where
  lawful := h.lawful.snoc h.enrolled.fresh
  enrolled := h.enrolled.subscribe h.lawful client
  served := h.served.subscribe client (h.lawful.other_of_not_opened h.enrolled.fresh)
  dispatched := by
    refine h.dispatched.keep (by simp [Entry.send?]) rfl rfl ?_
    intro id c there send mem
    rw [connections_subscribe] at there
    split at there
    · cases there
      cases mem
    · exact ⟨c, there, mem⟩

theorem Enrolled.unsubscribe (h : Enrolled r log) (lawful : Lawful log) (left : Left id c r r')
    (opened : .opened id c.client ∈ log) : Enrolled r' (log ++ [Entry.dropped id]) := by
  have still : ∀ {i client}, .opened i client ∈ log ++ [Entry.dropped id] ↔
      .opened i client ∈ log := by simp
  have gone : ∀ {i}, .dropped i ∉ log ++ [Entry.dropped id] ↔ .dropped i ∉ log ∧ i ≠ id := by
    intro i
    simp [not_or]
  refine ⟨fun i client mem => ?opened, fun client i => ?slots, fun i client => ?connected⟩
  case opened =>
    rw [left.nextSubscription]
    exact h.opened i client (still.1 mem)
  case slots =>
    rw [Log.IsCurrent, Log.latest?_snoc_dropped, gone, ← and_assoc, ← Log.IsCurrent, ← h.slots]
    have own : r.slots.get? client = some id → client = c.client := fun slot =>
      lawful.opened_unique ((h.slots client id).1 slot).opened opened
    rw [left.slots]
    split
    · next current =>
      rw [Table.get?_erase]
      split
      · next same =>
        rw [same, current]
        simp [eq_comm]
      · next other => exact ⟨fun slot => ⟨slot, fun same => other (own (same ▸ slot))⟩, And.left⟩
    · next away =>
      refine ⟨fun slot => ⟨slot, ?_⟩, And.left⟩
      rintro rfl
      exact away (own slot ▸ slot)
  case connected =>
    rw [left.connections, still, gone, ← and_assoc, ← h.connected]
    split <;> simp [*]

/-- The sends that waited for the connection are closed, and no others wait for it. -/
theorem Dispatched.unsubscribe (h : Dispatched r log) (there : r.connections.get? id = some c)
    (left : Left id c r r') : Dispatched r' (log ++ [Entry.dropped id]) where
  found := by
    intro send i n mem
    rw [left.nextSend]
    exact h.found send i n (by simpa using mem)
  sends := by
    intro send s' known'
    rw [left.sends] at known'
    obtain ⟨s, known, rfl⟩ := Option.map_eq_some_iff.1 known'
    have fits : Sends (log ++ [Entry.dropped id]) send s :=
      (h.sends send s known).keep (by simp [Entry.send?])
    unfold Send.closedIf
    split
    · exact sends_of_settled fits.found (by simp) (by simp)
    · exact fits
  queued := by
    intro i c' send there' mem
    rw [left.connections] at there'
    split at there'
    · cases there'
    · next away =>
      obtain ⟨s, known, own, waits⟩ := h.queued i c' send there' mem
      have other : send ∉ c.line := fun mem =>
        away (own.symm.trans (h.queued.waits there mem known).1)
      rw [left.sends, known, Option.map_some, Send.closedIf, if_neg other]
      exact ⟨s, rfl, own, waits⟩

theorem Tracks.unsubscribe (h : Tracks r log) (distinct : r.Distinct)
    (there : r.connections.get? id = some c) :
    Tracks (r.unsubscribe id) (log ++ [Entry.dropped id]) := by
  have left := left_unsubscribe distinct there
  obtain ⟨opened, undropped⟩ := h.opened there
  refine ⟨h.lawful.snoc ⟨⟨c.client, opened⟩, undropped⟩,
    h.enrolled.unsubscribe h.lawful left opened, ?_, h.dispatched.unsubscribe there left⟩
  refine h.served.keep id (by simp [Entry.subscription]) ?_ ?_
  · intro other away
    rw [left.connections, if_neg away]
  · intro c' there'
    rw [left.connections, if_pos rfl] at there'
    cases there'

namespace Tracks

/-! ### Notices that are pushed and read -/

theorem setConnection (h : Tracks r log) (there : r.connections.get? id = some c)
    (c' : Connection) (same : c'.client = c.client) (line : c'.line = c.line) {e : Entry}
    (follows : e.Follows log) (own : e.subscription = id) (quiet : e.enrols = false)
    (silent : e.send? = none) (serves : Serves (log ++ [e]) id c') :
    Tracks (r.setConnection id c') (log ++ [e]) := by
  have put : ∀ other, (r.setConnection id c').connections.get? other =
      if other = id then some c' else r.connections.get? other := fun _ => Table.get?_put _ _ _ _
  refine ⟨h.lawful.snoc follows, ?_, ?_, ?_⟩
  · exact h.enrolled.keep (by simpa using quiet) (map_client_setConnection there same) rfl rfl
  · refine h.served.keep id (by simpa using own) ?_ ?_
    · intro other away
      rw [put, if_neg away]
    · intro c₁ there'
      rw [put, if_pos rfl, Option.some.injEq] at there'
      exact there' ▸ serves
  · refine h.dispatched.keep (by simpa using silent) rfl rfl ?_
    intro other c₁ there' w mem
    rw [put] at there'
    split at there'
    · next here =>
      cases there'
      exact ⟨c, here ▸ there, line ▸ mem⟩
    · exact ⟨c₁, there', mem⟩

theorem push (h : Tracks r log) (there : r.connections.get? id = some c)
    (current : r.slots.get? c.client = some id) (n : Notice) :
    Tracks (r.setConnection id { c with buffer := c.buffer ++ [n] })
      (log ++ [Entry.pushed id n]) := by
  have serves := (h.served id c there).push n
  have follows : (Entry.pushed id n).Follows log := ⟨c.client, (h.enrolled.slots _ _).1 current⟩
  exact h.setConnection there { c with buffer := c.buffer ++ [n] } rfl rfl follows rfl rfl rfl
    serves

theorem follows_received (h : Tracks r log) (there : r.connections.get? id = some c)
    {rest : List Notice} (first : c.buffer = n :: rest) : (Entry.received id n).Follows log := by
  refine ⟨(h.opened there).2, rest, ?_⟩
  rw [(h.served id c there).buffered, first, List.append_assoc]
  rfl

theorem take (h : Tracks r log) (there : r.connections.get? id = some c) {rest : List Notice}
    (first : c.buffer = n :: rest) :
    Tracks (r.setConnection id { c with buffer := rest }.grant) (log ++ [Entry.received id n]) := by
  have serves := (h.served id c there).take first
  have follows := h.follows_received there first
  exact h.setConnection there { c with buffer := rest }.grant (Connection.client_grant _)
    (Connection.line_grant _) follows rfl rfl rfl serves

/-! ### Sends -/

theorem setSend (h : Tracks r log) (there : r.connections.get? id = some c)
    (c' : Connection) (same : c'.client = c.client) (known : r.sends.get? send = some s)
    (own : s.subscription = id) {s' : Send} (lawful : Lawful (log ++ es))
    (about : ∀ e ∈ es, e.subscription = id ∧ e.enrols = false ∧
      (e.send? = none ∨ e.send? = some send))
    (fits : Sends (log ++ es) send s') (serves : Serves (log ++ es) id c')
    (line : ∀ w ∈ c'.line, w = send ∧ s'.subscription = id ∧ s'.state = .waiting ∨
      w ≠ send ∧ w ∈ c.line) :
    Tracks ((r.setConnection id c').setSend send s') (log ++ es) := by
  have put : ∀ other, ((r.setConnection id c').setSend send s').connections.get? other =
      if other = id then some c' else r.connections.get? other := fun _ => Table.get?_put _ _ _ _
  refine ⟨lawful, ?_, ?_, ?_⟩
  · exact h.enrolled.keep (fun e mem => (about e mem).2.1) (map_client_setConnection there same)
      rfl rfl
  · refine h.served.keep id (fun e mem => (about e mem).1) ?_ ?_
    · intro other away
      rw [put, if_neg away]
    · intro c₁ there'
      rw [put, if_pos rfl, Option.some.injEq] at there'
      exact there' ▸ serves
  · refine h.dispatched.put known (fun e mem => (about e mem).2.2) rfl rfl fits ?_
    intro other c₁ there' w mem
    rw [put] at there'
    split at there'
    · next here =>
      cases there'
      rcases line w mem with ⟨rfl, here', waits⟩ | ⟨apart, old⟩
      · exact .inl ⟨rfl, here'.trans here.symm, waits⟩
      · exact .inr ⟨apart, c, here ▸ there, old⟩
    · next away =>
      refine .inr ⟨?_, c₁, there', mem⟩
      rintro rfl
      exact away ((h.dispatched.queued.waits there' mem known).1.symm.trans own)

theorem enter (h : Tracks r log) (known : r.sends.get? send = some s) (waits : s.state = .waiting)
    (there : r.connections.get? s.subscription = some c) (granted : send ∈ c.granted) :
    Tracks ((r.setConnection s.subscription { c with
      buffer := c.buffer ++ [s.notice], granted := c.granted.filter (· ≠ send) }).setSend send
        { s with state := .sent }) (log ++ [Entry.accepted send s.subscription s.notice]) := by
  have fits := h.dispatched.sends send s known
  obtain ⟨tried, fresh⟩ := fits.waiting waits
  have follows : (Entry.accepted send s.subscription s.notice).Follows log := ⟨tried, fresh⟩
  have serves := h.served _ c there
  refine h.setSend there { c with
    buffer := c.buffer ++ [s.notice], granted := c.granted.filter (· ≠ send) } rfl known rfl
    (h.lawful.snoc follows) ?_ ?_ (serves.enter send s.notice) ?_
  · simp [Entry.subscription, Entry.enrols, Entry.send?]
  · exact sends_of_settled (List.mem_append_left _ fits.found) (by simp) (by simp)
  · -- the send was in line once
    have apart : send ∉ c.waiting := fun mem => (List.nodup_append.1 serves.once).2.2 send granted
      send mem rfl
    intro w mem
    refine .inr ?_
    rcases List.mem_append.1 mem with mem | mem
    · obtain ⟨mem, other⟩ := List.mem_filter.1 mem
      exact ⟨of_decide_eq_true other, List.mem_append_left _ mem⟩
    · refine ⟨?_, List.mem_append_right _ mem⟩
      rintro rfl
      exact apart mem

theorem find (h : Tracks r log) {date : Instant} (slot : r.slots.get? client = some id) :
    Tracks { r with
      sends := r.sends.put r.nextSend { subscription := id, notice := ⟨client, date⟩ }
      nextSend := r.nextSend + 1 } (log ++ [Entry.found r.nextSend id ⟨client, date⟩]) := by
  have current := (h.enrolled.slots client id).1 slot
  refine ⟨h.lawful.snoc ⟨current, h.dispatched.fresh⟩, ?_, ?_, h.dispatched.find h.lawful id _⟩
  · exact h.enrolled.keep (by simp [Entry.enrols]) (fun _ => rfl) rfl rfl
  · refine h.served.keep id (by simp [Entry.subscription]) (fun _ _ => rfl) ?_
    intro c there
    have serves := h.served id c there
    exact ⟨serves.still rfl rfl, serves.once⟩

theorem follows_tried (h : Tracks r log) (known : r.sends.get? send = some s)
    (held : s.state = .held) : (Entry.tried send s.subscription s.notice).Follows log :=
  have fits := h.dispatched.sends send s known
  ⟨fits.found, fits.held held⟩

theorem close (h : Tracks r log) (known : r.sends.get? send = some s) (held : s.state = .held)
    (gone : r.connections.get? s.subscription = none) :
    Tracks (r.setSend send { s with state := .closed })
      (log ++ [Entry.tried send s.subscription s.notice]) := by
  have fits := h.dispatched.sends send s known
  refine ⟨h.lawful.snoc (h.follows_tried known held), ?_, ?_, ?_⟩
  · exact h.enrolled.keep (by simp [Entry.enrols]) (fun _ => rfl) rfl rfl
  · refine h.served.keep s.subscription (by simp [Entry.subscription]) (fun _ _ => rfl) ?_
    intro c there
    rw [show r.connections.get? s.subscription = some c from there] at gone
    cases gone
  · refine h.dispatched.put known (by simp [Entry.send?]) rfl rfl ?_ ?_
    · exact sends_of_settled (List.mem_append_left _ fits.found) (by simp) (by simp)
    · intro id c there w mem
      exact .inr ⟨h.ne_of_waits there known (by simp [held]) w mem, c, there, mem⟩

theorem buffer (h : Tracks r log) (known : r.sends.get? send = some s) (held : s.state = .held)
    (there : r.connections.get? s.subscription = some c) :
    Tracks ((r.setConnection s.subscription { c with buffer := c.buffer ++ [s.notice] }).setSend
      send { s with state := .sent })
      (log ++ [Entry.tried send s.subscription s.notice,
        Entry.accepted send s.subscription s.notice]) := by
  have fits := h.dispatched.sends send s known
  have lawful : Lawful (log ++ [Entry.tried send s.subscription s.notice,
      Entry.accepted send s.subscription s.notice]) := by
    rw [List.append_cons]
    refine (h.lawful.snoc (h.follows_tried known held)).snoc
      ⟨List.mem_append_right _ List.mem_cons_self, fun id m mem => ?_⟩
    exact h.unaccepted known held id m (by simpa using mem)
  refine h.setSend there { c with buffer := c.buffer ++ [s.notice] } rfl known rfl lawful
    ?_ ?_ ?_ ?_
  · simp [Entry.subscription, Entry.enrols, Entry.send?]
  · exact sends_of_settled (List.mem_append_left _ fits.found) (by simp) (by simp)
  · exact (h.served _ c there).accept send s.notice
  · intro w mem
    exact .inr ⟨h.ne_of_waits there known (by simp [held]) w mem, mem⟩

theorem wait (h : Tracks r log) (known : r.sends.get? send = some s) (held : s.state = .held)
    (there : r.connections.get? s.subscription = some c) :
    Tracks ((r.setConnection s.subscription { c with waiting := c.waiting ++ [send] }).setSend
      send { s with state := .waiting }) (log ++ [Entry.tried send s.subscription s.notice]) := by
  have fits := h.dispatched.sends send s known
  have fresh : send ∉ c.line := fun mem => h.ne_of_waits there known (by simp [held]) send mem rfl
  refine h.setSend there { c with waiting := c.waiting ++ [send] } rfl known rfl
    (h.lawful.snoc (h.follows_tried known held)) ?_ ?_ ?_ ?_
  · simp [Entry.subscription, Entry.enrols, Entry.send?]
  · refine ⟨List.mem_append_left _ fits.found, fun held => (by cases held), fun _ => ?_⟩
    refine ⟨List.mem_append_right _ List.mem_cons_self, fun id m mem => ?_⟩
    exact h.unaccepted known held id m (by simpa using mem)
  · exact (h.served _ c there).wait fresh s.notice
  · intro w mem
    rw [Connection.line, ← List.append_assoc] at mem
    rcases List.mem_append.1 mem with old | new
    · exact .inr ⟨h.ne_of_waits there known (by simp [held]) w old, old⟩
    · exact .inl ⟨List.mem_singleton.1 new, rfl, rfl⟩

theorem forget (h : Tracks r log) (send : SendId) : Tracks (r.forget send) log := by
  have gone := forgotten_forget r send
  have clients : ∀ id, ((r.forget send).connections.get? id).map Connection.client =
      (r.connections.get? id).map Connection.client := by
    intro id
    rcases gone.connections id with same | ⟨c, there, left⟩
    · rw [same]
    · rw [there, left, Option.map_some, Option.map_some, Connection.client_withdraw]
  refine ⟨h.lawful, ?_, fun id c there => ?_, h.dispatched.forget gone⟩
  · have kept : Enrolled (r.forget send) (log ++ []) :=
      h.enrolled.keep (by simp) clients gone.slots gone.nextSubscription
    rwa [List.append_nil] at kept
  · rcases gone.connections id with same | ⟨c', there', left⟩
    · rw [same] at there
      exact h.served id c there
    · rw [left, Option.some.injEq] at there
      exact there ▸ (h.served id c' there').forget send

/-! ### Steps and runs -/

theorem does (h : Tracks r log) (distinct : r.Distinct) (step : Does r es r') :
    Tracks r' (log ++ es) := by
  cases step with
  | nothing => rwa [List.append_nil]
  | subscribe client => exact h.subscribe client
  | drop there => exact h.unsubscribe distinct there
  | push there current room => exact h.push there current _
  | take there first => exact h.take there first
  | find slot => exact h.find slot
  | close known held gone => exact h.close known held gone
  | buffer known held there room => exact h.buffer known held there
  | wait known held there full => exact h.wait known held there
  | enter known waits there granted => exact h.enter known waits there granted
  | forget send =>
    rw [List.append_nil]
    exact h.forget send

end Tracks

/-! ### Replaced subscriptions -/

theorem idle_setSend {s' : Send} (idle : r.inFlight id = false)
    (rests : s'.subscription = id → s'.state ≠ .held ∧ s'.state ≠ .waiting) :
    (r.setSend send s').inFlight id = false := by
  rw [inFlight_eq_false_iff] at idle ⊢
  intro w s known own
  rw [get?_setSend] at known
  split at known
  · cases known
    exact rests own
  · exact idle w s known own

namespace Tracks

theorem not_slot (h : Tracks r log) (replaced : log.IsReplaced id) (client : String) :
    r.slots.get? client ≠ some id := fun slot =>
  h.lawful.not_current_of_replaced replaced client ((h.enrolled.slots client id).1 slot)

/-- Nothing new comes to a replaced subscription once no send has its connection. -/
theorem settled (h : Tracks r log) (distinct : r.Distinct) (step : Does r es r')
    (replaced : log.IsReplaced id) (idle : r.inFlight id = false) :
    Log.taken es id = [] ∧ r'.inFlight id = false := by
  have rests := inFlight_eq_false_iff.1 idle
  cases step with
  | nothing => exact ⟨rfl, idle⟩
  | subscribe client => exact ⟨by simp [Entry.taken?], idle⟩
  | drop there =>
    refine ⟨by simp [Entry.taken?], inFlight_eq_false_iff.2 fun send s known' own => ?_⟩
    rw [(left_unsubscribe distinct there).sends] at known'
    obtain ⟨old, known, rfl⟩ := Option.map_eq_some_iff.1 known'
    unfold Send.closedIf at own ⊢
    split at own
    · next closed =>
      rw [if_pos closed]
      simp
    · next still =>
      rw [if_neg still]
      exact rests send old known own
  | @push id' c n there current room =>
    refine ⟨Log.taken_eq_nil ?_, idle⟩
    simp only [List.mem_singleton, forall_eq, Entry.subscription]
    rintro rfl
    exact h.not_slot replaced c.client current
  | take there first => exact ⟨by simp [Entry.taken?], idle⟩
  | @find client date id' slot =>
    refine ⟨by simp [Entry.taken?], idle_setSend idle fun own => ?_⟩
    exact absurd (own ▸ slot) (h.not_slot replaced client)
  | close known held gone => exact ⟨by simp [Entry.taken?], idle_setSend idle (by simp)⟩
  | @buffer send s c known held there room =>
    refine ⟨Log.taken_eq_nil ?_, idle_setSend idle (by simp)⟩
    have other : s.subscription ≠ id := fun own => (rests send s known own).1 held
    simp [Entry.subscription, other]
  | @wait send s c known held there full =>
    refine ⟨by simp [Entry.taken?], idle_setSend idle fun own => ?_⟩
    exact absurd held (rests send s known own).1
  | @enter send s c known waits there granted =>
    refine ⟨Log.taken_eq_nil ?_, idle_setSend idle (by simp)⟩
    have other : s.subscription ≠ id := fun own => (rests send s known own).2 waits
    simp [Entry.subscription, other]
  | forget send =>
    refine ⟨rfl, inFlight_eq_false_iff.2 fun w s known own => ?_⟩
    rw [(forgotten_forget r send).sends] at known
    split at known
    · cases known
    · exact rests w s known own

end Tracks

/-! ### Histories -/

namespace History

variable {h : History}

theorem tracks_step (tracks : Tracks h.watchers h.log)
    (few : h.watchers.nextSubscription ≤ 2 ^ 64) (e : Event) :
    Tracks (h.step e).watchers (h.step e).log :=
  have distinct := tracks.distinct few
  tracks.does distinct (does_step distinct e)

theorem tracks_run (tracks : Tracks h.watchers h.log) {events : List Event}
    (few : h.Few events) : Tracks (h.run events).watchers (h.run events).log := by
  induction events generalizing h with
  | nil => exact tracks
  | cons e rest ih => exact ih (tracks_step tracks few.now e) few.step

theorem replaced_run (tracks : Tracks h.watchers h.log) (replaced : h.log.IsReplaced id)
    {later : List Event} (few : h.Few later) : (h.run later).log.IsReplaced id := by
  induction later generalizing h with
  | nil => exact replaced
  | cons e rest ih =>
    have next := tracks_step tracks few.now e
    exact ih next (next.lawful.replaced_append replaced) few.step

theorem settled_run (tracks : Tracks h.watchers h.log) (replaced : h.log.IsReplaced id)
    (idle : h.watchers.inFlight id = false) {later : List Event} (few : h.Few later) :
    (h.run later).log.taken id = h.log.taken id ∧ (h.run later).watchers.inFlight id = false := by
  induction later generalizing h with
  | nil => exact ⟨rfl, idle⟩
  | cons e rest ih =>
    have distinct := tracks.distinct few.now
    have next := tracks_step tracks few.now e
    obtain ⟨none_, idle'⟩ := tracks.settled distinct (does_step distinct e) replaced idle
    obtain ⟨same, idle''⟩ := ih next (next.lawful.replaced_append replaced) idle' few.step
    refine ⟨same.trans ?_, idle''⟩
    rw [step, Log.taken_append, none_, List.append_nil]

/-- What the registry guarantees at any moment. -/
structure Registered (h : History) : Prop where
  lawful : Lawful h.log
  /-- A client has a slot if the subscription that was opened last for it was not dropped, and the
  slot is that one's. -/
  slots : ∀ client id, h.watchers.slots.get? client = some id ↔ h.log.IsCurrent client id
  size : ∃ clients : List String, clients.Nodup ∧ clients.length = h.watchers.size ∧
    ∀ client, client ∈ clients ↔ ∃ id, h.log.IsCurrent client id
  /-- Pushing on a replaced subscription changes nothing. -/
  deaf : ∀ id, h.log.IsReplaced id → ∀ n, h.watchers.push id n = h.watchers
  /-- Dropping one changes nothing for others. -/
  apart : ∀ id, h.log.IsReplaced id →
    (h.watchers.unsubscribe id).slots = h.watchers.slots ∧
    (∀ other, other ≠ id →
      (h.watchers.unsubscribe id).connections.get? other = h.watchers.connections.get? other) ∧
    ∀ send s, h.watchers.sends.get? send = some s → s.subscription ≠ id →
      (h.watchers.unsubscribe id).sends.get? send = some s
  never : ∀ id, h.log.IsReplaced id → ∀ later, h.Few later → ∀ client,
    (h.run later).watchers.slots.get? client ≠ some id
  /-- A connection with room takes what is sent to it, and what it has kept room for. -/
  room : ∀ id c, h.watchers.connections.get? id = some c →
    (c.hasRoom = true → h.log.IsCurrent c.client id →
      ∀ n, (h.watchers.push id n).noticesOf id = c.buffer ++ [n]) ∧
    ∀ send s, h.watchers.sends.get? send = some s → s.subscription = id →
      s.state = .held ∧ c.hasRoom = true ∨ s.state = .waiting ∧ send ∈ c.granted →
      (h.watchers.attempt send).isSent send = true
  /-- What a connection has taken was read or is in its buffer, in that order. -/
  buffered : ∀ id c, h.watchers.connections.get? id = some c →
    (h.log.taken id).map Prod.snd = h.log.read id ++ c.buffer
  read : ∀ id, h.log.read id <+: (h.log.taken id).map Prod.snd
  /-- A connection takes each send once. -/
  once : ∀ id, ((h.log.taken id).filterMap Prod.fst).Nodup
  /-- A send brings a notice for the client of the subscription. -/
  own : ∀ send id n, .accepted send id n ∈ h.log → .opened id n.client ∈ h.log
  /-- A replaced subscription that no send can reach gets nothing more: its reader is given what is
  in the buffer, and then it ends. -/
  ends : ∀ id, h.log.IsReplaced id → h.watchers.inFlight id = false →
    ∀ later, h.Few later → (h.run later).log.taken id = h.log.taken id ∧
    ∀ c, (h.run later).watchers.connections.get? id = some c →
      ((h.run later).watchers.receive id).map Prod.fst = some (c.yields false)

theorem registered_of_tracks (tracks : Tracks h.watchers h.log)
    (few : h.watchers.nextSubscription ≤ 2 ^ 64) : h.Registered where
  lawful := tracks.lawful
  slots := tracks.enrolled.slots
  size := by
    refine ⟨h.watchers.slots.keys, h.watchers.slots.nodup, List.length_map _, fun client => ?_⟩
    simp only [← tracks.enrolled.slots, ← Option.ne_none_iff_exists', ne_eq,
      Table.get?_eq_none_iff, Classical.not_not]
  deaf := fun id replaced n =>
    push_of_not_current (tracks.distinct few) n fun c _ => tracks.not_slot replaced c.client
  apart := by
    intro id replaced
    cases there : h.watchers.connections.get? id with
    | none =>
      have same : h.watchers.unsubscribe id = h.watchers := by rw [unsubscribe, there]
      rw [same]
      exact ⟨rfl, fun _ _ => rfl, fun _ _ known _ => known⟩
    | some c =>
      have left := left_unsubscribe (tracks.distinct few) there
      refine ⟨?_, fun other away => ?_, fun send s known away => ?_⟩
      · rw [left.slots, if_neg (tracks.not_slot replaced c.client)]
      · rw [left.connections, if_neg away]
      · have other : send ∉ c.line := fun mem =>
          away (tracks.dispatched.queued.waits there mem known).1
        rw [left.sends, known, Option.map_some, Send.closedIf, if_neg other]
  never := fun id replaced later few client =>
    (tracks_run tracks few).not_slot (replaced_run tracks replaced few) client
  room := by
    intro id c there
    refine ⟨fun room current n => ?_, ?_⟩
    · rw [push_of_room there ((tracks.enrolled.slots c.client id).2 current) room, setConnection,
        noticesOf_put]
    · rintro send s known rfl (⟨held, room⟩ | ⟨waits, granted⟩)
      · rw [attempt_room known held there room, isSent_iff]
        exact ⟨{ s with state := .sent }, (get?_setSend _ _ _ _).trans (if_pos rfl), rfl⟩
      · rw [attempt_granted known waits there granted, isSent_iff]
        exact ⟨{ s with state := .sent }, (get?_setSend _ _ _ _).trans (if_pos rfl), rfl⟩
  buffered := fun id c there => (tracks.served id c there).buffered
  read := tracks.lawful.read_prefix
  once := tracks.lawful.nodup_taken
  own := fun _ _ _ mem =>
    tracks.lawful.opened_of_found
      (tracks.lawful.found_of_tried (tracks.lawful.tried_of_accepted mem))
  ends := by
    intro id replaced idle later few
    obtain ⟨same, idle'⟩ := settled_run tracks replaced idle few
    refine ⟨same, fun c there => ?_⟩
    have now := tracks_run tracks few
    rw [receive_of_not_current there
      (now.not_slot (replaced_run tracks replaced few) c.client), idle']

theorem registered_run (events : List Event) (few : Few {} events) :
    (History.run {} events).Registered := by
  refine registered_of_tracks (tracks_run tracks_empty few) ?_
  rw [nextSubscription_run]
  exact Nat.le_of_lt few

/-- Alice watches twice, and the first subscription is used and dropped after that. -/
def watchedTwice : List Event :=
  [.subscribe "alice", .subscribe "alice", .push 0 ⟨"alice", .epoch⟩, .drop 0]

theorem watchedTwice_registered :
    Few {} watchedTwice ∧ (History.run {} watchedTwice).Registered :=
  ⟨by decide, registered_run watchedTwice (by decide)⟩

def aSecondLater : Instant := ⟨1, 0, by decide, by decide, Instant.epoch.nanos_lt⟩

/-- A send waits for room. There is room for two before it does its next step. -/
def overtaken : List Event :=
  .subscribe "alice" :: List.replicate 16 (.push 0 ⟨"alice", .epoch⟩) ++
    [.lookUp "alice" .epoch, .attempt 0, .receive 0, .receive 0, .push 0 ⟨"alice", aSecondLater⟩,
      .attempt 0]

/-- A subscription brings the notice of another client if that is what was pushed on it. A notice
may be taken before that of a send which was tried earlier. -/
theorem foreign_notice_read : (¬ ∀ (events : List Event) (id : SubscriptionId) (client : String)
    (n : Notice), .opened id client ∈ (History.run {} events).log →
      .received id n ∈ (History.run {} events).log → n.client = client) ∧
    [Entry.tried 0 0 ⟨"alice", .epoch⟩, .pushed 0 ⟨"alice", aSecondLater⟩,
      .accepted 0 0 ⟨"alice", .epoch⟩].Sublist (History.run {} overtaken).log := by
  refine ⟨fun own => ?_, by decide +kernel⟩
  have same := own [.subscribe "alice", .push 0 ⟨"bob", .epoch⟩, .receive 0] 0 "alice"
    ⟨"bob", .epoch⟩ (by decide +kernel) (by decide +kernel)
  exact absurd same (by decide)

end History

end Watchers

end Relay
