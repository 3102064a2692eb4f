import Relay.Proofs.Notify.Connections
import Relay.Proofs.Notify.WatchLog

/-!
# Steps of the watch registry

Clients subscribe and drop their subscriptions, notices are pushed and read, notifications look up
a connection, try their send and end, all in any order. `Watchers.History` is what comes of it,
with a log of what happened. `Watchers.Does` has all that one step can do (`Watchers.does_step`).
-/

namespace Relay

/-- The one entry of a table with a property, if all such have the same key. -/
theorem Entries.filter_eq_singleton {κ α : Type} {es : List (κ × α)} {e : κ × α}
    {p : κ × α → Bool} (nodup : (es.map Prod.fst).Nodup) (mem : e ∈ es) (here : p e = true)
    (only : ∀ e' ∈ es, p e' = true → e'.1 = e.1) : es.filter p = [e] := by
  induction es with
  | nil => cases mem
  | cons f rest ih =>
    rw [List.map_cons, List.nodup_cons] at nodup
    obtain ⟨new, nodup⟩ := nodup
    have later := fun e' mem' => only e' (List.mem_cons_of_mem f mem')
    rcases List.mem_cons.1 mem with rfl | mem
    · have none_ : rest.filter p = [] := by
        refine List.filter_eq_nil_iff.2 fun e' mem' holds => new ?_
        rw [← later e' mem' holds]
        exact List.mem_map_of_mem mem'
      rw [List.filter_cons_of_pos here, none_]
    · have other : ¬ p f = true := by
        intro holds
        rw [only f List.mem_cons_self holds] at new
        exact new (List.mem_map_of_mem mem)
      rw [List.filter_cons_of_neg other]
      exact ih nodup mem later

/-- What the reader of a connection gets that is not the current one. Notices may still come if a
send has the connection. -/
def Connection.yields (c : Connection) (coming : Bool) : Watchers.Received :=
  match c.buffer with
  | n :: _ => .notice n
  | [] => if coming then .pending else .ended

namespace Watchers

variable {r r' : Watchers} {id : SubscriptionId} {send : SendId} {s : Send} {c : Connection}

inductive Event where
  | subscribe (client : String)
  | drop (id : SubscriptionId)
  | push (id : SubscriptionId) (notice : Notice)
  | receive (id : SubscriptionId)
  /-- A notification begins: it looks up the connection of a client. -/
  | lookUp (client : String) (date : Instant)
  /-- It tries its send. -/
  | attempt (send : SendId)
  /-- It ends or is given up. -/
  | forget (send : SendId)

/-- The send of a notification has succeeded. -/
def isSent (r : Watchers) (send : SendId) : Bool :=
  match r.result? send with
  | some (.ok _) => true
  | _ => false

/-- The sends that have succeeded since. -/
def newlySent (r r' : Watchers) : Log :=
  (r'.sends.entries.filter fun e => r'.isSent e.1 && !r.isSent e.1).map fun e =>
    .accepted e.1 e.2.subscription e.2.notice

namespace Event

def apply (r : Watchers) : Event → Watchers
  | subscribe client => (r.subscribe client).2
  | drop id => r.unsubscribe id
  | push id n => r.push id n
  | receive id => ((r.receive id).map Prod.snd).getD r
  | lookUp client date => ((r.lookUp client date).map Prod.snd).getD r
  | attempt send => r.attempt send
  | forget send => r.forget send

/-- What one sees of an event. -/
def act (r : Watchers) : Event → Log
  | subscribe client => [.opened (r.subscribe client).1 client]
  | drop id => if r.connections.contains id then [.dropped id] else []
  | push id n => if (r.push id n).noticesOf id = r.noticesOf id then [] else [.pushed id n]
  | receive id =>
    match r.receive id with
    | some (.notice n, _) => [.received id n]
    | _ => []
  | lookUp client date =>
    match r.lookUp client date with
    | some (send, r') =>
      match r'.sends.get? send with
      | some s => [.found send s.subscription s.notice]
      | none => []
    | none => []
  | attempt send =>
    match r.sends.get? send with
    | some s => if s.state = .held then [.tried send s.subscription s.notice] else []
    | none => []
  | forget _ => []

/-- What an event adds to the log. -/
def entries (r : Watchers) (e : Event) : Log := e.act r ++ newlySent r (e.apply r)

end Event

structure History where
  watchers : Watchers := {}
  log : Log := []

namespace History

def step (h : History) (e : Event) : History :=
  { watchers := e.apply h.watchers, log := h.log ++ e.entries h.watchers }

def run (h : History) (events : List Event) : History := events.foldl step h

end History

/-! ### How many subscriptions there are -/

/-- How many subscriptions some events make. -/
def subscriptions (events : List Event) : Nat :=
  events.countP fun
    | .subscribe _ => true
    | _ => false

theorem nextSubscription_setState (r : Watchers) (send : SendId) (state : SendState) :
    (r.setState send state).nextSubscription = r.nextSubscription := by
  unfold setState
  split <;> rfl

theorem nextSubscription_closeAll (r : Watchers) (sends : List SendId) :
    (sends.foldl (·.setState · .closed) r).nextSubscription = r.nextSubscription := by
  induction sends generalizing r with
  | nil => rfl
  | cons send rest ih => rw [List.foldl_cons, ih, nextSubscription_setState]

theorem nextSubscription_attempt (r : Watchers) (send : SendId) :
    (r.attempt send).nextSubscription = r.nextSubscription := by
  unfold attempt bring
  split
  · rfl
  · split
    · exact nextSubscription_setState _ _ _
    · split <;> exact nextSubscription_setState _ _ _
    · split
      · exact nextSubscription_setState _ _ _
      · rfl
    · rfl

theorem nextSubscription_apply (r : Watchers) (e : Event) :
    (e.apply r).nextSubscription = r.nextSubscription + subscriptions [e] := by
  cases e with
  | subscribe client => rfl
  | drop id =>
    simp only [Event.apply, unsubscribe]
    split
    · rfl
    · exact nextSubscription_closeAll _ _
  | push id n =>
    simp only [Event.apply, push, offer]
    split
    · rfl
    · split
      · rfl
      · split <;> rfl
  | receive id =>
    simp only [Event.apply, receive]
    cases r.connections.get? id with
    | none => rfl
    | some c =>
      rw [Option.map_some, Option.map_some, Option.getD_some]
      cases c.buffer <;> rfl
  | lookUp client date =>
    simp only [Event.apply, lookUp]
    cases r.slots.get? client <;> rfl
  | attempt send => exact nextSubscription_attempt r send
  | forget send =>
    simp only [Event.apply, forget]
    split
    · rfl
    · split <;> rfl

namespace History

variable {h : History} {e : Event} {events : List Event}

theorem nextSubscription_run (h : History) (events : List Event) :
    (h.run events).watchers.nextSubscription =
      h.watchers.nextSubscription + subscriptions events := by
  induction events generalizing h with
  | nil => rfl
  | cons e rest ih =>
    have counts : subscriptions (e :: rest) = subscriptions [e] + subscriptions rest := by
      rw [← List.singleton_append, subscriptions, List.countP_append]
      rfl
    rw [counts, ← Nat.add_assoc, ← nextSubscription_apply]
    exact ih (h.step e)

/-- Fewer than `2 ^ 64` subscriptions are made, counting those that some events are about to
make. -/
def Few (h : History) (events : List Event) : Prop :=
  h.watchers.nextSubscription + subscriptions events < 2 ^ 64

instance : Decidable (h.Few events) := inferInstanceAs (Decidable (_ < _))

theorem few_iff : h.Few events ↔ (h.run events).watchers.nextSubscription < 2 ^ 64 := by
  rw [nextSubscription_run, Few]

theorem Few.now (few : h.Few events) : h.watchers.nextSubscription ≤ 2 ^ 64 :=
  Nat.le_of_lt (Nat.lt_of_le_of_lt (Nat.le_add_right _ _) few)

theorem Few.step (few : h.Few (e :: events)) : (h.step e).Few events := by
  rw [few_iff] at few ⊢
  exact few

end History

/-! ### All that a step can do -/

def setConnection (r : Watchers) (id : SubscriptionId) (c : Connection) : Watchers :=
  { r with connections := r.connections.put id c }

def setSend (r : Watchers) (send : SendId) (s : Send) : Watchers :=
  { r with sends := r.sends.put send s }

/-- The step from a state, with what it adds to the log. -/
inductive Does (r : Watchers) : Log → Watchers → Prop
  | nothing : Does r [] r
  | subscribe (client : String) :
    Does r [.opened r.nextSubscription client] (r.subscribe client).2
  | drop {id : SubscriptionId} {c : Connection} (there : r.connections.get? id = some c) :
    Does r [.dropped id] (r.unsubscribe id)
  | push {id : SubscriptionId} {c : Connection} {n : Notice}
      (there : r.connections.get? id = some c) (current : r.slots.get? c.client = some id)
      (room : c.hasRoom = true) :
    Does r [.pushed id n] (r.setConnection id { c with buffer := c.buffer ++ [n] })
  | take {id : SubscriptionId} {c : Connection} {n : Notice} {rest : List Notice}
      (there : r.connections.get? id = some c) (first : c.buffer = n :: rest) :
    Does r [.received id n] (r.setConnection id { c with buffer := rest }.grant)
  | find {client : String} {date : Instant} {id : SubscriptionId}
      (slot : r.slots.get? client = some id) :
    Does r [.found r.nextSend id ⟨client, date⟩]
      { r with
        sends := r.sends.put r.nextSend { subscription := id, notice := ⟨client, date⟩ }
        nextSend := r.nextSend + 1 }
  | close {send : SendId} {s : Send} (known : r.sends.get? send = some s)
      (held : s.state = .held) (gone : r.connections.get? s.subscription = none) :
    Does r [.tried send s.subscription s.notice] (r.setSend send { s with state := .closed })
  | buffer {send : SendId} {s : Send} {c : Connection} (known : r.sends.get? send = some s)
      (held : s.state = .held) (there : r.connections.get? s.subscription = some c)
      (room : c.hasRoom = true) :
    Does r [.tried send s.subscription s.notice, .accepted send s.subscription s.notice]
      ((r.setConnection s.subscription { c with buffer := c.buffer ++ [s.notice] }).setSend send
        { s with state := .sent })
  | wait {send : SendId} {s : Send} {c : Connection} (known : r.sends.get? send = some s)
      (held : s.state = .held) (there : r.connections.get? s.subscription = some c)
      (full : c.hasRoom ≠ true) :
    Does r [.tried send s.subscription s.notice]
      ((r.setConnection s.subscription { c with waiting := c.waiting ++ [send] }).setSend send
        { s with state := .waiting })
  | enter {send : SendId} {s : Send} {c : Connection} (known : r.sends.get? send = some s)
      (waits : s.state = .waiting) (there : r.connections.get? s.subscription = some c)
      (granted : send ∈ c.granted) :
    Does r [.accepted send s.subscription s.notice]
      ((r.setConnection s.subscription { c with
        buffer := c.buffer ++ [s.notice], granted := c.granted.filter (· ≠ send) }).setSend send
          { s with state := .sent })
  | forget (send : SendId) : Does r [] (r.forget send)

/-! ### Connections that are not current -/

theorem receive_of_not_current (there : r.connections.get? id = some c)
    (other : r.slots.get? c.client ≠ some id) :
    (r.receive id).map Prod.fst = some (c.yields (r.inFlight id)) := by
  have replaced : r.isCurrent c.client id = false := beq_eq_false_iff_ne.2 other
  rw [receive, there, Option.map_some, Option.map_some, Connection.yields]
  cases c.buffer with
  | nil => simp only [replaced, Bool.false_eq_true, false_or]
  | cons n rest => rfl

theorem number_inj {id' : SubscriptionId} (few : id < 2 ^ 64) (few' : id' < 2 ^ 64)
    (same : number id = number id') : id = id' := by
  have mods := congrArg UInt64.toNat same
  rwa [number, number, UInt64.toNat_ofNat', UInt64.toNat_ofNat', Nat.mod_eq_of_lt few,
    Nat.mod_eq_of_lt few'] at mods

/-- Subscriptions are told apart by their numbers. -/
def Distinct (r : Watchers) : Prop :=
  ∀ id c current, r.connections.get? id = some c → r.numbered? c.client id = some current →
    current = id

theorem Distinct.numbered (h : r.Distinct) (there : r.connections.get? id = some c) :
    r.numbered? c.client id = if r.slots.get? c.client = some id then some id else none := by
  split
  · next slot => exact numbered_of_slot slot
  · next other =>
    refine Option.eq_none_iff_forall_ne_some.2 fun current numbered => other ?_
    obtain rfl := h id c current there numbered
    exact slot_of_numbered numbered

theorem push_of_vacant (n : Notice)
    (vacant : ∀ c, r.connections.get? id = some c → r.slots.get? c.client = none) :
    r.push id n = r := by
  unfold push
  cases there : r.connections.get? id with
  | none => rfl
  | some c => rw [Option.bind_some, numbered?, vacant c there, Option.filter_none]

theorem push_of_not_current (h : r.Distinct) (n : Notice)
    (other : ∀ c, r.connections.get? id = some c → r.slots.get? c.client ≠ some id) :
    r.push id n = r := by
  unfold push
  cases there : r.connections.get? id with
  | none => rfl
  | some c => rw [Option.bind_some, h.numbered there, if_neg (other c there)]

theorem push_of_room {n : Notice} (there : r.connections.get? id = some c)
    (slot : r.slots.get? c.client = some id) (room : c.hasRoom = true) :
    r.push id n = r.setConnection id { c with buffer := c.buffer ++ [n] } := by
  rw [push, there, Option.bind_some, numbered_of_slot slot]
  dsimp only
  rw [offer, there]
  exact if_pos room

theorem inFlight_eq_false_iff : r.inFlight id = false ↔
    ∀ send s, r.sends.get? send = some s → s.subscription = id →
      s.state ≠ .held ∧ s.state ≠ .waiting := by
  rw [inFlight, List.any_eq_false]
  constructor
  · intro idle send s known own
    have there : (send, s) ∈ r.sends.entries := Table.mem_entries_iff.2 known
    have mem : s ∈ r.sends.values := List.mem_map.2 ⟨(send, s), there, rfl⟩
    have rests := idle s mem
    simp only [own, beq_self_eq_true, Bool.true_and, Bool.or_eq_true, beq_iff_eq, not_or] at rests
    exact rests
  · intro idle s mem
    obtain ⟨⟨send, s⟩, there, rfl⟩ := List.mem_map.1 mem
    by_cases own : s.subscription = id
    · have rests := idle send s (Table.mem_entries_iff.1 there) own
      simp [rests]
    · simp [own]

/-! ### Sends that have succeeded -/

theorem isSent_iff : r.isSent send = true ↔ ∃ s, r.sends.get? send = some s ∧ s.state = .sent := by
  unfold isSent result?
  cases r.sends.get? send with
  | none => simp
  | some s =>
    obtain ⟨subscription, notice, state⟩ := s
    cases state <;> simp

theorem unsent_of_state (known : r.sends.get? send = some s) (state : s.state ≠ .sent) :
    r.isSent send = false := by
  rw [Bool.eq_false_iff, ne_eq, isSent_iff]
  rintro ⟨s', known', sent⟩
  rw [known] at known'
  cases known'
  exact state sent

theorem newlySent_eq_nil (old : ∀ send, r'.isSent send = true → r.isSent send = true) :
    newlySent r r' = [] := by
  rw [newlySent, List.map_eq_nil_iff, List.filter_eq_nil_iff]
  rintro ⟨send, s⟩ - new
  rw [Bool.and_eq_true, Bool.not_eq_true'] at new
  rw [old send new.1] at new
  cases new.2

theorem newlySent_eq_singleton (known : r'.sends.get? send = some s) (sent : s.state = .sent)
    (new : r.isSent send = false)
    (old : ∀ other, other ≠ send → r'.isSent other = true → r.isSent other = true) :
    newlySent r r' = [.accepted send s.subscription s.notice] := by
  have mem : (send, s) ∈ r'.sends.entries := Table.mem_entries_iff.2 known
  have here : (r'.isSent send && !r.isSent send) = true := by
    rw [isSent_iff.2 ⟨s, known, sent⟩, new]
    rfl
  rw [newlySent, Entries.filter_eq_singleton r'.sends.nodup mem here]
  · rfl
  · rintro ⟨other, s'⟩ - holds
    rw [Bool.and_eq_true, Bool.not_eq_true'] at holds
    dsimp only at holds ⊢
    apply Classical.byContradiction
    intro apart
    rw [old other apart holds.1] at holds
    cases holds.2

theorem newlySent_of_sends (same : r'.sends = r.sends) : newlySent r r' = [] := by
  refine newlySent_eq_nil fun send sent => ?_
  rw [isSent_iff, same] at sent
  exact isSent_iff.2 sent

theorem newlySent_self (r : Watchers) : newlySent r r = [] := newlySent_of_sends rfl

theorem newlySent_setConnection (r : Watchers) (id : SubscriptionId) (c : Connection) :
    newlySent r (r.setConnection id c) = [] := newlySent_of_sends rfl

theorem get?_setSend (r : Watchers) (send other : SendId) (s : Send) :
    (r.setSend send s).sends.get? other = if other = send then some s else r.sends.get? other :=
  Table.get?_put _ _ _ _

theorem isSent_setSend_of_ne {other : SendId} (apart : other ≠ send) :
    (r.setSend send s).isSent other = r.isSent other := by
  rw [Bool.eq_iff_iff, isSent_iff, isSent_iff, get?_setSend, if_neg apart]

/-! ### Sends that are closed -/

/-- What dropping a connection makes of a send. -/
def Send.closedIf (sends : List SendId) (send : SendId) (s : Send) : Send :=
  if send ∈ sends then { s with state := .closed } else s

theorem get?_setState (r : Watchers) (send other : SendId) (state : SendState) :
    (r.setState send state).sends.get? other =
      if other = send then (r.sends.get? other).map ({ · with state }) else r.sends.get? other := by
  unfold setState
  by_cases same : other = send
  · subst same
    rw [if_pos rfl]
    cases known : r.sends.get? other with
    | none => exact known
    | some s => exact (Table.get?_put _ _ _ _).trans (if_pos rfl)
  · rw [if_neg same]
    cases r.sends.get? send with
    | none => rfl
    | some s => exact (Table.get?_put _ _ _ _).trans (if_neg same)

theorem get?_closeAll (r : Watchers) (sends : List SendId) (other : SendId) :
    (sends.foldl (·.setState · .closed) r).sends.get? other =
      (r.sends.get? other).map (Send.closedIf sends other) := by
  induction sends generalizing r with
  | nil =>
    have none_ : Send.closedIf [] other = id := by
      funext s
      simp [Send.closedIf]
    rw [none_, Option.map_id]
    rfl
  | cons send rest ih =>
    rw [List.foldl_cons, ih, get?_setState]
    cases r.sends.get? other with
    | none => split <;> rfl
    | some s =>
      by_cases same : other = send
      · simp [Send.closedIf, same]
      · simp [Send.closedIf, same]

theorem setState_eq (r : Watchers) (send : SendId) (state : SendState) :
    r.setState send state = { r with sends := (r.setState send state).sends } := by
  unfold setState
  cases r.sends.get? send <;> rfl

theorem closeAll_eq (r : Watchers) (sends : List SendId) :
    sends.foldl (·.setState · .closed) r =
      { r with sends := (sends.foldl (·.setState · .closed) r).sends } := by
  induction sends generalizing r with
  | nil => rfl
  | cons send rest ih =>
    rw [List.foldl_cons, ih, setState_eq]

/-- What is left when a subscription is dropped. -/
structure Left (id : SubscriptionId) (c : Connection) (r r' : Watchers) : Prop where
  slots : r'.slots = if r.slots.get? c.client = some id then r.slots.erase c.client else r.slots
  connections : ∀ other, r'.connections.get? other =
    if other = id then none else r.connections.get? other
  sends : ∀ send, r'.sends.get? send =
    (r.sends.get? send).map (Send.closedIf c.line send)
  nextSubscription : r'.nextSubscription = r.nextSubscription
  nextSend : r'.nextSend = r.nextSend

theorem left_unsubscribe (h : r.Distinct) (there : r.connections.get? id = some c) :
    Left id c r (r.unsubscribe id) := by
  unfold unsubscribe
  rw [there]
  dsimp only
  rw [closeAll_eq]
  refine ⟨?_, fun other => Table.get?_erase _ _ _, fun send => get?_closeAll _ _ _, rfl, rfl⟩
  dsimp only
  rw [h.numbered there]
  split <;> rfl

theorem setState_eq_setSend (known : r.sends.get? send = some s) (state : SendState) :
    r.setState send state = r.setSend send { s with state } := by
  unfold setState
  rw [known]
  rfl

theorem setState_setConnection (known : r.sends.get? send = some s) (state : SendState) :
    (r.setConnection id c).setState send state =
      (r.setConnection id c).setSend send { s with state } :=
  setState_eq_setSend (r := r.setConnection id c) known state

/-! ### Sends that are forgotten -/

structure Forgotten (send : SendId) (r r' : Watchers) : Prop where
  sends : ∀ other, r'.sends.get? other = if other = send then none else r.sends.get? other
  connections : ∀ id, r'.connections.get? id = r.connections.get? id ∨
    ∃ c, r.connections.get? id = some c ∧ r'.connections.get? id = some (c.withdraw send)
  own : ∀ s, r.sends.get? send = some s →
    r'.connections.get? s.subscription =
      (r.connections.get? s.subscription).map (·.withdraw send)
  slots : r'.slots = r.slots
  nextSubscription : r'.nextSubscription = r.nextSubscription
  nextSend : r'.nextSend = r.nextSend

theorem forgotten_forget (r : Watchers) (send : SendId) : Forgotten send r (r.forget send) := by
  unfold forget
  cases known : r.sends.get? send with
  | none =>
    refine ⟨fun other => ?_, fun id => .inl rfl, fun s known' => ?_, rfl, rfl, rfl⟩
    · by_cases same : other = send
      · rw [if_pos same, same]
        exact known
      · rw [if_neg same]
    · rw [known] at known'
      cases known'
  | some s =>
    dsimp only
    cases there : r.connections.get? s.subscription with
    | none =>
      refine ⟨fun other => Table.get?_erase _ _ _, fun id => .inl rfl, fun s' known' => ?_, rfl,
        rfl, rfl⟩
      rw [known] at known'
      cases known'
      rw [there, Option.map_none]
    | some c =>
      have put : ∀ id, (r.connections.put s.subscription (c.withdraw send)).get? id =
          if id = s.subscription then some (c.withdraw send) else r.connections.get? id :=
        fun id => Table.get?_put _ _ _ _
      refine ⟨fun other => Table.get?_erase _ _ _, fun id => ?_, fun s' known' => ?_, rfl, rfl, rfl⟩
      · by_cases same : id = s.subscription
        · exact .inr ⟨c, same ▸ there, (put id).trans (if_pos same)⟩
        · exact .inl ((put id).trans (if_neg same))
      · rw [known] at known'
        cases known'
        rw [there]
        exact (put s.subscription).trans (if_pos rfl)

/-! ### Each step does one of these -/

/-- The sends that wait for a connection are known to wait for it. -/
def Queued (r : Watchers) : Prop :=
  ∀ id c send, r.connections.get? id = some c → send ∈ c.line →
    ∃ s, r.sends.get? send = some s ∧ s.subscription = id ∧ s.state = .waiting

theorem Queued.waits (h : r.Queued) (there : r.connections.get? id = some c)
    (mem : send ∈ c.line) (known : r.sends.get? send = some s) :
    s.subscription = id ∧ s.state = .waiting := by
  obtain ⟨s', known', waits⟩ := h id c send there mem
  rw [known] at known'
  cases known'
  exact waits

theorem does_nothing {e : Event} (same : e.apply r = r) (unseen : e.act r = []) :
    Does r (e.entries r) (e.apply r) := by
  rw [Event.entries, same, unseen, newlySent_self]
  exact .nothing

theorem entries_of_unsent {e : Event} (unsent : newlySent r (e.apply r) = []) :
    e.entries r = e.act r := by
  rw [Event.entries, unsent, List.append_nil]

theorem does_drop (distinct : r.Distinct) (id : SubscriptionId) :
    Does r (Event.entries r (.drop id)) (Event.apply r (.drop id)) := by
  cases there : r.connections.get? id with
  | none =>
    exact does_nothing (by rw [Event.apply, unsubscribe, there])
      (by rw [Event.act, Table.contains, there]; rfl)
  | some c =>
    have closed : newlySent r (r.unsubscribe id) = [] := by
      refine newlySent_eq_nil fun send sent => ?_
      obtain ⟨s, found, state⟩ := isSent_iff.1 sent
      rw [(left_unsubscribe distinct there).sends] at found
      obtain ⟨old, known, rfl⟩ := Option.map_eq_some_iff.1 found
      unfold Send.closedIf at state
      split at state
      · cases state
      · exact isSent_iff.2 ⟨old, known, state⟩
    rw [entries_of_unsent closed, Event.act, Table.contains, there, if_pos Option.isSome_some]
    exact .drop there

theorem does_push (distinct : r.Distinct) (id : SubscriptionId) (n : Notice) :
    Does r (Event.entries r (.push id n)) (Event.apply r (.push id n)) := by
  have same (h : r.push id n = r) :
      Does r (Event.entries r (.push id n)) (Event.apply r (.push id n)) :=
    does_nothing h (by rw [Event.act, h, if_pos rfl])
  cases there : r.connections.get? id with
  | none => exact same (by rw [push, there, Option.bind_none])
  | some c =>
    by_cases slot : r.slots.get? c.client = some id
    · by_cases room : c.hasRoom = true
      · have pushed : r.push id n = r.setConnection id { c with buffer := c.buffer ++ [n] } :=
          push_of_room there slot room
        have more : (r.push id n).noticesOf id ≠ r.noticesOf id := by
          rw [pushed, setConnection, noticesOf_put, noticesOf, there]
          simp
        simp only [Event.entries, Event.act, Event.apply, if_neg more]
        rw [pushed, newlySent_setConnection]
        exact .push there slot room
      · apply same
        rw [push, there, Option.bind_some, numbered_of_slot slot]
        dsimp only
        rw [offer, there]
        exact if_neg room
    · apply same
      refine push_of_not_current distinct n fun c' there' => ?_
      rw [there] at there'
      cases there'
      exact slot

theorem does_receive (id : SubscriptionId) :
    Does r (Event.entries r (.receive id)) (Event.apply r (.receive id)) := by
  cases there : r.connections.get? id with
  | none =>
    have got : r.receive id = none := by rw [receive, there, Option.map_none]
    exact does_nothing (by simp only [Event.apply, got, Option.map_none, Option.getD_none])
      (by rw [Event.act, got])
  | some c =>
    cases first : c.buffer with
    | nil =>
      have got : ∃ none_, r.receive id = some (none_, r) ∧ ∀ n, none_ ≠ .notice n := by
        simp only [receive, there, Option.map_some, first]
        refine ⟨_, rfl, fun n => ?_⟩
        split <;> simp
      obtain ⟨none_, got, empty⟩ := got
      have unseen : Event.act r (.receive id) = [] := by
        rw [Event.act, got]
        split
        · next same =>
          cases same
          exact absurd rfl (empty _)
        · rfl
      exact does_nothing
        (by simp only [Event.apply, got, Option.map_some, Option.getD_some]) unseen
    | cons n rest =>
      have got : r.receive id =
          some (.notice n, r.setConnection id { c with buffer := rest }.grant) := by
        simp only [receive, there, Option.map_some, first]
        rfl
      simp only [Event.entries, Event.act, Event.apply, got, Option.map_some, Option.getD_some,
        newlySent_setConnection, List.append_nil]
      exact .take there first

theorem does_lookUp (client : String) (date : Instant) :
    Does r (Event.entries r (.lookUp client date)) (Event.apply r (.lookUp client date)) := by
  cases slot : r.slots.get? client with
  | none =>
    exact does_nothing
      (by simp only [Event.apply, lookUp, slot, Option.map_none, Option.getD_none])
      (by simp only [Event.act, lookUp, slot, Option.map_none])
  | some id =>
    have old : newlySent r { r with
        sends := r.sends.put r.nextSend { subscription := id, notice := ⟨client, date⟩ }
        nextSend := r.nextSend + 1 } = [] := by
      refine newlySent_eq_nil fun send sent => ?_
      obtain ⟨s, found, state⟩ := isSent_iff.1 sent
      rw [Table.get?_put] at found
      split at found
      · cases found
        cases state
      · exact isSent_iff.2 ⟨s, found, state⟩
    simp only [Event.entries, Event.act, Event.apply, lookUp, slot, Option.map_some,
      Option.getD_some, Table.get?_put, if_true, old, List.append_nil]
    exact .find slot

theorem attempt_none (known : r.sends.get? send = some s) (held : s.state = .held)
    (gone : r.connections.get? s.subscription = none) :
    r.attempt send = r.setSend send { s with state := .closed } := by
  simp only [attempt, known, held, gone]
  exact setState_eq_setSend known _

theorem attempt_room (known : r.sends.get? send = some s) (held : s.state = .held)
    (there : r.connections.get? s.subscription = some c) (room : c.hasRoom = true) :
    r.attempt send = (r.setConnection s.subscription { c with
      buffer := c.buffer ++ [s.notice] }).setSend send { s with state := .sent } := by
  simp only [attempt, known, held, there, if_pos room]
  exact setState_setConnection known _

theorem attempt_full (known : r.sends.get? send = some s) (held : s.state = .held)
    (there : r.connections.get? s.subscription = some c) (full : c.hasRoom ≠ true) :
    r.attempt send = (r.setConnection s.subscription { c with
      waiting := c.waiting ++ [send] }).setSend send { s with state := .waiting } := by
  simp only [attempt, known, held, there, if_neg full]
  exact setState_setConnection known _

theorem attempt_granted (known : r.sends.get? send = some s) (waits : s.state = .waiting)
    (there : r.connections.get? s.subscription = some c) (granted : send ∈ c.granted) :
    r.attempt send = (r.setConnection s.subscription { c with
      buffer := c.buffer ++ [s.notice], granted := c.granted.filter (· ≠ send) }).setSend send
        { s with state := .sent } := by
  simp only [attempt, known, waits, there, if_pos granted]
  exact setState_setConnection known _

/-- A send that has come in is the only one that is new. -/
theorem newlySent_setSend (r : Watchers) (id : SubscriptionId) (c : Connection)
    (new : r.isSent send = false) (s : Send) :
    newlySent r ((r.setConnection id c).setSend send { s with state := .sent }) =
      [.accepted send s.subscription s.notice] := by
  refine newlySent_eq_singleton (s := { s with state := .sent })
    (by rw [get?_setSend, if_pos rfl]) rfl new fun other apart sent => ?_
  rw [isSent_setSend_of_ne apart] at sent
  exact sent

theorem newlySent_unsent (r r' : Watchers) (sends : r'.sends = r.sends) (send : SendId)
    (unsent : s.state ≠ .sent) :
    newlySent r (r'.setSend send s) = [] := by
  refine newlySent_eq_nil fun other sent => ?_
  by_cases apart : other = send
  · obtain ⟨s', found, state⟩ := isSent_iff.1 sent
    rw [get?_setSend, if_pos apart] at found
    cases found
    exact absurd state unsent
  · rw [isSent_setSend_of_ne apart, isSent_iff, sends] at sent
    exact isSent_iff.2 sent

/-- A send is tried once. -/
theorem act_attempt (known : r.sends.get? send = some s) : Event.act r (.attempt send) =
    if s.state = .held then [.tried send s.subscription s.notice] else [] := by
  simp only [Event.act, known]

theorem does_attempt (send : SendId) :
    Does r (Event.entries r (.attempt send)) (Event.apply r (.attempt send)) := by
  cases known : r.sends.get? send with
  | none => exact does_nothing (by rw [Event.apply, attempt, known]) (by rw [Event.act, known])
  | some s =>
    have untried (later : s.state ≠ .held) : Event.act r (.attempt send) = [] :=
      (act_attempt known).trans (if_neg later)
    cases state : s.state with
    | held =>
      rw [Event.entries, act_attempt known, if_pos state, Event.apply]
      cases there : r.connections.get? s.subscription with
      | none =>
        rw [attempt_none known state there, newlySent_unsent r r rfl send (by simp)]
        exact .close known state there
      | some c =>
        by_cases room : c.hasRoom = true
        · rw [attempt_room known state there room,
            newlySent_setSend r _ _ (unsent_of_state known (by simp [state]))]
          exact .buffer known state there room
        · rw [attempt_full known state there room,
            newlySent_unsent r (r.setConnection _ _) rfl send (by simp)]
          exact .wait known state there room
    | waiting =>
      cases there : r.connections.get? s.subscription with
      | none =>
        exact does_nothing (by simp only [Event.apply, attempt, known, state, there])
          (untried (by simp [state]))
      | some c =>
        by_cases granted : send ∈ c.granted
        · rw [Event.entries, untried (by simp [state]), Event.apply,
            attempt_granted known state there granted,
            newlySent_setSend r _ _ (unsent_of_state known (by simp [state]))]
          exact .enter known state there granted
        · refine does_nothing ?_ (untried (by simp [state]))
          simp only [Event.apply, attempt, known, state, there, if_neg granted]
    | sent | closed =>
      exact does_nothing (by simp only [Event.apply, attempt, known, state])
        (untried (by simp [state]))

theorem does_forget (send : SendId) :
    Does r (Event.entries r (.forget send)) (Event.apply r (.forget send)) := by
  have old : newlySent r (r.forget send) = [] := by
    refine newlySent_eq_nil fun other sent => ?_
    obtain ⟨s, found, state⟩ := isSent_iff.1 sent
    rw [(forgotten_forget r send).sends] at found
    split at found
    · cases found
    · exact isSent_iff.2 ⟨s, found, state⟩
  rw [entries_of_unsent old]
  exact .forget send

/-- This is all that a step can do. -/
theorem does_step (distinct : r.Distinct) (e : Event) : Does r (e.entries r) (e.apply r) := by
  cases e with
  | subscribe client =>
    rw [entries_of_unsent (newlySent_of_sends rfl)]
    exact .subscribe client
  | drop id => exact does_drop distinct id
  | push id n => exact does_push distinct id n
  | receive id => exact does_receive id
  | lookUp client date => exact does_lookUp client date
  | attempt send => exact does_attempt send
  | forget send => exact does_forget send

end Watchers

end Relay
