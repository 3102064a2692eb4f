import Relay.Notify.Watchers

/-!
# Connections and what they hold

A connection holds notices for its own client only, and the current subscription of a client has
its connection (`Watchers.Consistent`). What any step does is said by `Watchers.Keeps`: the
notices of a current subscription stay until its reader takes them, and a send that holds a
connection stays as it is until it is tried.
-/

namespace Relay

/-! ### Room of a connection -/

namespace Connection

variable {c : Connection} {send : SendId}

@[simp] theorem client_grant (c : Connection) : c.grant.client = c.client := by
  unfold grant
  split <;> rfl

@[simp] theorem buffer_grant (c : Connection) : c.grant.buffer = c.buffer := by
  unfold grant
  split <;> rfl

@[simp] theorem line_grant (c : Connection) : c.grant.line = c.line := by
  unfold grant
  split
  · rfl
  · next send rest queue => simp [line, queue]

@[simp] theorem client_withdraw (c : Connection) (send : SendId) :
    (c.withdraw send).client = c.client := by
  unfold withdraw
  split
  · exact client_grant _
  · rfl

@[simp] theorem buffer_withdraw (c : Connection) (send : SendId) :
    (c.withdraw send).buffer = c.buffer := by
  unfold withdraw
  split
  · exact buffer_grant _
  · rfl

@[simp] theorem line_withdraw (c : Connection) (send : SendId) :
    (c.withdraw send).line = c.line.filter (· ≠ send) := by
  have left : ({ c with
      waiting := c.waiting.filter (· ≠ send)
      granted := c.granted.filter (· ≠ send) } : Connection).line = c.line.filter (· ≠ send) :=
    (List.filter_append _ _).symm
  unfold withdraw
  split
  · exact (line_grant _).trans left
  · exact left

theorem granted_of_withdraw (some_ : (c.withdraw send).granted ≠ []) : c.granted ≠ [] := by
  unfold withdraw at some_
  split at some_
  · next here => exact List.ne_nil_of_mem here
  · rintro none_
    exact some_ (by simp [none_])

end Connection

namespace Watchers

variable {r r' r'' : Watchers} {id : SubscriptionId} {client : String} {send : SendId}
  {taken taken' : List (SubscriptionId × Notice)} {tried tried' : List SendId}

def noticesOf (r : Watchers) (id : SubscriptionId) : List Notice :=
  match r.connections.get? id with
  | some c => c.buffer
  | none => []

/-- A subscription was made for a client. -/
structure Belongs (r : Watchers) (id : SubscriptionId) (client : String) : Prop where
  opened : id < r.nextSubscription
  client : ∀ c, r.connections.get? id = some c → c.client = client

structure Fits (r : Watchers) (id : SubscriptionId) (c : Connection) : Prop where
  opened : id < r.nextSubscription
  own : ∀ n ∈ c.buffer, n.client = c.client
  line : ∀ send ∈ c.line, send < r.nextSend ∧
    ∀ s, r.sends.get? send = some s → s.subscription = id ∧ s.state ≠ .held

structure Consistent (r : Watchers) : Prop where
  slots : ∀ client id, r.slots.get? client = some id →
    ∃ c, r.connections.get? id = some c ∧ c.client = client
  connections : ∀ id c, r.connections.get? id = some c → r.Fits id c
  sends : ∀ send s, r.sends.get? send = some s →
    send < r.nextSend ∧ r.Belongs s.subscription s.notice.client

/-- A connection of a client keeps room for a send. -/
def IsGranting (r : Watchers) (id : SubscriptionId) (client : String) : Prop :=
  ∃ c, r.connections.get? id = some c ∧ c.client = client ∧ c.granted ≠ []

/-- What a step keeps, apart from notices that readers have taken and sends that were tried. Only
a notice that is taken makes room for a send. -/
structure Keeps (taken : List (SubscriptionId × Notice)) (tried : List SendId)
    (r r' : Watchers) : Prop where
  consistent : r'.Consistent
  belongs : ∀ id client, r.Belongs id client → r'.Belongs id client
  later : r.nextSubscription ≤ r'.nextSubscription
  current : ∀ client id, id < r.nextSubscription → r'.slots.get? client = some id →
    r.slots.get? client = some id
  notices : ∀ client id n, id < r.nextSubscription → r'.slots.get? client = some id →
    n ∈ r.noticesOf id → n ∈ r'.noticesOf id ∨ (id, n) ∈ taken
  granting : ∀ id client, r'.IsGranting id client →
    r.IsGranting id client ∨ ∃ n : Notice, n.client = client ∧ (id, n) ∈ taken
  held : ∀ send s, send ∉ tried → r.sends.get? send = some s → s.state = .held →
    r'.sends.get? send = some s

namespace Keeps

theorem refl (h : r.Consistent) : Keeps taken tried r r where
  consistent := h
  belongs := fun _ _ belongs => belongs
  later := Nat.le_refl _
  current := fun _ _ _ slot => slot
  notices := fun _ _ _ _ _ mem => .inl mem
  granting := fun _ _ => .inl
  held := fun _ _ _ found _ => found

theorem trans (h : Keeps taken tried r r') (h' : Keeps taken' tried' r' r'') :
    Keeps (taken ++ taken') (tried ++ tried') r r'' where
  consistent := h'.consistent
  belongs := fun id client belongs => h'.belongs id client (h.belongs id client belongs)
  later := Nat.le_trans h.later h'.later
  current := by
    intro client id opened slot
    exact h.current client id opened
      (h'.current client id (Nat.lt_of_lt_of_le opened h.later) slot)
  notices := by
    intro client id n opened slot mem
    have opened' := Nat.lt_of_lt_of_le opened h.later
    rcases h.notices client id n opened (h'.current client id opened' slot) mem with mem | mem
    · rcases h'.notices client id n opened' slot mem with mem | mem
      · exact .inl mem
      · exact .inr (List.mem_append_right _ mem)
    · exact .inr (List.mem_append_left _ mem)
  granting := by
    intro id client grants
    rcases h'.granting id client grants with grants | ⟨n, own, mem⟩
    · rcases h.granting id client grants with grants | ⟨n, own, mem⟩
      · exact .inl grants
      · exact .inr ⟨n, own, List.mem_append_left _ mem⟩
    · exact .inr ⟨n, own, List.mem_append_right _ mem⟩
  held := by
    intro send s other found held
    rw [List.mem_append, not_or] at other
    exact h'.held send s other.2 (h.held send s other.1 found held) held

/-- Trying a send that does not hold a connection is no loss. -/
theorem of_not_held (h : Keeps taken [send] r r')
    (other : ∀ s, r.sends.get? send = some s → s.state ≠ .held) : Keeps taken [] r r' where
  consistent := h.consistent
  belongs := h.belongs
  later := h.later
  current := h.current
  notices := h.notices
  granting := h.granting
  held := by
    intro send' s _ found held
    apply h.held send' s _ found held
    intro mem
    rw [List.mem_singleton.1 mem] at found
    exact other s found held

end Keeps

/-! ### Changes of one connection or one send -/

theorem keeps_connection (h : r.Consistent) {c : Connection} (c' : Connection)
    (found : r.connections.get? id = some c) (client : c'.client = c.client)
    (own : ∀ n ∈ c'.buffer, n.client = c.client)
    (line : ∀ send ∈ c'.line, send < r.nextSend ∧
      ∀ s, r.sends.get? send = some s → s.subscription = id ∧ s.state ≠ .held)
    (notices : ∀ n ∈ c.buffer, n ∈ c'.buffer ∨ (id, n) ∈ taken)
    (granting : c'.granted ≠ [] →
      c.granted ≠ [] ∨ ∃ n : Notice, n.client = c.client ∧ (id, n) ∈ taken) :
    Keeps taken [] r { r with connections := r.connections.put id c' } := by
  have belongs : ∀ id' client', r.Belongs id' client' →
      Belongs { r with connections := r.connections.put id c' } id' client' := by
    rintro id' client' ⟨opened, own⟩
    refine ⟨opened, ?_⟩
    intro c₁ there
    rw [Table.get?_put] at there
    split at there
    · next same =>
      cases there
      rw [client]
      exact own c (same ▸ found)
    · exact own c₁ there
  refine ⟨⟨?_, ?_, ?_⟩, belongs, Nat.le_refl _, fun _ _ _ slot => slot, ?_, ?_,
    fun _ _ _ s _ => s⟩
  · intro client' id' slot
    obtain ⟨c₁, there, same⟩ := h.slots client' id' slot
    by_cases here : id' = id
    · subst here
      rw [found] at there
      cases there
      exact ⟨c', (Table.get?_put _ _ _ _).trans (if_pos rfl), client.trans same⟩
    · exact ⟨c₁, (Table.get?_put _ _ _ _).trans ((if_neg here).trans there), same⟩
  · intro id' c₁ there
    rw [Table.get?_put] at there
    split at there
    · next same =>
      subst same
      cases there
      refine ⟨(h.connections id' c found).opened, ?_, line⟩
      rw [client]
      exact own
    · obtain ⟨opened, own, line⟩ := h.connections id' c₁ there
      exact ⟨opened, own, line⟩
  · intro send s there
    obtain ⟨started, own⟩ := h.sends send s there
    exact ⟨started, belongs _ _ own⟩
  · intro client' id' n _ _ mem
    unfold noticesOf at mem ⊢
    rw [Table.get?_put]
    by_cases here : id' = id
    · subst here
      rw [found] at mem
      rw [if_pos rfl]
      exact notices n mem
    · rw [if_neg here]
      exact .inl mem
  · rintro id' client' ⟨c₁, there, own, grants⟩
    rw [Table.get?_put] at there
    split at there
    · next here =>
      subst here
      cases there
      rw [client] at own
      rcases granting grants with old | ⟨n, same, mem⟩
      · exact .inl ⟨c, found, own, old⟩
      · exact .inr ⟨n, same.trans own, mem⟩
    · exact .inl ⟨c₁, there, own, grants⟩

theorem keeps_buffer (h : r.Consistent) {c : Connection} {n : Notice}
    (found : r.connections.get? id = some c) (own : n.client = c.client) :
    Keeps taken [] r
      { r with connections := r.connections.put id { c with buffer := c.buffer ++ [n] } } := by
  have fits := h.connections id c found
  refine keeps_connection h _ found rfl ?_ fits.line ?_ .inl
  · exact List.forall_mem_append.2 ⟨fits.own, List.forall_mem_singleton.2 own⟩
  · intro m mem
    exact .inl (List.mem_append_left _ mem)

theorem keeps_setState (h : r.Consistent) (send : SendId) {state : SendState}
    (tried : state ≠ .held) : Keeps taken [send] r (r.setState send state) := by
  unfold setState
  cases found : r.sends.get? send with
  | none => exact .refl h
  | some s =>
    refine ⟨⟨h.slots, ?_, ?_⟩, fun _ _ b => ⟨b.opened, b.client⟩, Nat.le_refl _,
      fun _ _ _ slot => slot, fun _ _ _ _ _ mem => .inl mem, fun _ _ => .inl, ?_⟩
    · intro id c there
      obtain ⟨opened, own, line⟩ := h.connections id c there
      refine ⟨opened, own, fun other mem => ⟨(line other mem).1, ?_⟩⟩
      intro s' new
      rw [Table.get?_put] at new
      split at new
      · next same =>
        cases new
        subst same
        exact ⟨((line other mem).2 s found).1, tried⟩
      · exact (line other mem).2 s' new
    · intro other s' new
      rw [Table.get?_put] at new
      split at new
      · next same =>
        cases new
        subst same
        obtain ⟨started, opened, own⟩ := h.sends other s found
        exact ⟨started, opened, own⟩
      · obtain ⟨started, opened, own⟩ := h.sends other s' new
        exact ⟨started, opened, own⟩
    · intro other s' apart there _
      rw [List.mem_singleton] at apart
      exact (Table.get?_put _ _ _ _).trans ((if_neg apart).trans there)

theorem keeps_eraseSend (h : r.Consistent) (send : SendId) :
    Keeps taken [send] r { r with sends := r.sends.erase send } := by
  have old : ∀ {other s}, (r.sends.erase send).get? other = some s →
      r.sends.get? other = some s := by
    intro other s there
    rw [Table.get?_erase] at there
    split at there
    · cases there
    · exact there
  refine ⟨⟨h.slots, ?_, ?_⟩, fun _ _ b => ⟨b.opened, b.client⟩, Nat.le_refl _,
    fun _ _ _ slot => slot, fun _ _ _ _ _ mem => .inl mem, fun _ _ => .inl, ?_⟩
  · intro id c there
    obtain ⟨opened, own, line⟩ := h.connections id c there
    exact ⟨opened, own, fun other mem =>
      ⟨(line other mem).1, fun s new => (line other mem).2 s (old new)⟩⟩
  · intro other s new
    obtain ⟨started, opened, own⟩ := h.sends other s (old new)
    exact ⟨started, opened, own⟩
  · intro other s apart there _
    rw [List.mem_singleton] at apart
    exact (Table.get?_erase _ _ _).trans ((if_neg apart).trans there)

theorem setState_connections (r : Watchers) (connections : Table SubscriptionId Connection)
    (send : SendId) (state : SendState) :
    { r with connections }.setState send state =
      { r.setState send state with connections } := by
  unfold setState
  dsimp only
  cases r.sends.get? send <;> rfl

theorem not_held_setState {other : SendId} {state : SendState} (tried : state ≠ .held)
    (h : ∀ s, r.sends.get? other = some s → s.state ≠ .held) :
    ∀ s, (r.setState send state).sends.get? other = some s → s.state ≠ .held := by
  unfold setState
  cases r.sends.get? send with
  | none => exact h
  | some s =>
    intro s' found
    rw [Table.get?_put] at found
    split at found
    · cases found
      exact tried
    · exact h s' found

theorem keeps_close (h : r.Consistent) (send : SendId) {state : SendState} (tried : state ≠ .held)
    (other : ∀ s, r.sends.get? send = some s → s.state ≠ .held) :
    Keeps [] [] r (r.setState send state) :=
  .of_not_held (keeps_setState h send tried) other

/-! ### Subscriptions -/

theorem keeps_subscribe (h : r.Consistent) (client : String) :
    Keeps [] [] r (r.subscribe client).2 := by
  have other : ∀ {id}, id < r.nextSubscription →
      (r.connections.put r.nextSubscription { client }).get? id = r.connections.get? id := by
    intro id opened
    exact (Table.get?_put _ _ _ _).trans (if_neg (Nat.ne_of_lt opened))
  have belongs : ∀ id client', r.Belongs id client' →
      (r.subscribe client).2.Belongs id client' := by
    rintro id client' ⟨opened, own⟩
    refine ⟨Nat.lt_succ_of_lt opened, fun c there => own c ?_⟩
    exact (other opened).symm.trans there
  refine ⟨⟨?_, ?_, ?_⟩, belongs, Nat.le_succ _, ?_, ?_, ?_, fun _ _ _ s _ => s⟩
  · intro client' id slot
    by_cases same : client' = client
    · have new : id = r.nextSubscription := by
        rw [subscribe, Table.get?_put, if_pos same, Option.some.injEq] at slot
        exact slot.symm
      refine ⟨{ client }, ?_, same.symm⟩
      rw [new]
      exact (Table.get?_put _ _ _ _).trans (if_pos rfl)
    · rw [subscribe, Table.get?_put, if_neg same] at slot
      obtain ⟨c, there, own⟩ := h.slots client' id slot
      exact ⟨c, (other (h.connections id c there).opened).trans there, own⟩
  · intro id c there
    rw [subscribe, Table.get?_put] at there
    split at there
    · next new =>
      cases there
      refine ⟨new ▸ Nat.lt_succ_self _, ?_, ?_⟩
      · intro n mem
        cases mem
      · intro w mem
        cases mem
    · obtain ⟨opened, own, line⟩ := h.connections id c there
      exact ⟨Nat.lt_succ_of_lt opened, own, line⟩
  · intro send s there
    obtain ⟨started, own⟩ := h.sends send s there
    exact ⟨started, belongs _ _ own⟩
  · intro client' id opened slot
    rw [subscribe, Table.get?_put] at slot
    split at slot
    · rw [Option.some.injEq] at slot
      exact absurd slot.symm (Nat.ne_of_lt opened)
    · exact slot
  · intro client' id n opened _ mem
    unfold noticesOf subscribe at *
    rw [other opened]
    exact .inl mem
  · rintro id client' ⟨c, there, own, grants⟩
    rw [subscribe, Table.get?_put] at there
    split at there
    · cases there
      exact absurd rfl grants
    · exact .inl ⟨c, there, own, grants⟩

theorem belongs_subscribe (r : Watchers) (client : String) :
    (r.subscribe client).2.Belongs (r.subscribe client).1 client := by
  refine ⟨Nat.lt_succ_self _, ?_⟩
  intro c there
  rw [subscribe, Table.get?_put, if_pos rfl, Option.some.injEq] at there
  rw [← there]

theorem keeps_offer (h : r.Consistent) (notice : Notice) (belongs : r.Belongs id notice.client) :
    Keeps [] [] r (r.offer id notice) := by
  unfold offer
  cases found : r.connections.get? id with
  | none => exact .refl h
  | some c =>
    dsimp only
    split
    · exact keeps_buffer h found (belongs.client c found).symm
    · exact .refl h

theorem slot_of_numbered {current : SubscriptionId} (h : r.numbered? client id = some current) :
    r.slots.get? client = some current :=
  (Option.filter_eq_some_iff.1 h).1

theorem numbered_of_slot (slot : r.slots.get? client = some id) :
    r.numbered? client id = some id :=
  Option.filter_eq_some_iff.2 ⟨slot, beq_self_eq_true _⟩

theorem keeps_push (h : r.Consistent) (notice : Notice) (belongs : r.Belongs id notice.client) :
    Keeps [] [] r (r.push id notice) := by
  unfold push
  cases goes : (r.connections.get? id).bind fun c => r.numbered? c.client id with
  | none => exact .refl h
  | some current =>
    obtain ⟨c, found, numbered⟩ := Option.bind_eq_some_iff.1 goes
    -- a slot with the same number is one of the same client
    obtain ⟨c', there, own⟩ := h.slots c.client current (slot_of_numbered numbered)
    refine keeps_offer h notice ⟨(h.connections current c' there).opened, ?_⟩
    intro c₁ there'
    rw [there] at there'
    cases there'
    exact own.trans (belongs.client c found)

/-- Room that a reader has made is kept for a send that waits. -/
theorem keeps_receive (h : r.Consistent) {got : Received} (took : r.receive id = some (got, r')) :
    (∃ n, got = .notice n ∧ Keeps [(id, n)] [] r r') ∨ (∀ n, got ≠ .notice n) ∧ r' = r := by
  obtain ⟨c, found, took⟩ := Option.map_eq_some_iff.1 took
  cases first : c.buffer with
  | nil =>
    rw [first] at took
    obtain ⟨rfl, rfl⟩ := Prod.mk.inj took
    refine .inr ⟨?_, rfl⟩
    intro n
    split <;> simp
  | cons n rest =>
    rw [first] at took
    obtain ⟨rfl, rfl⟩ := Prod.mk.inj took
    obtain ⟨-, own, line⟩ := h.connections id c found
    rw [first, List.forall_mem_cons] at own
    refine .inl ⟨n, rfl, keeps_connection h _ found (Connection.client_grant _) ?_ ?_ ?_ ?_⟩
    · rw [Connection.buffer_grant]
      exact own.2
    · rw [Connection.line_grant]
      exact line
    · intro m mem
      rw [Connection.buffer_grant]
      rw [first] at mem
      rcases List.mem_cons.1 mem with rfl | mem
      · exact .inr List.mem_cons_self
      · exact .inl mem
    · intro _
      exact .inr ⟨n, own.1, List.mem_cons_self⟩

theorem keeps_closeAll (h : r.Consistent) (sends : List SendId)
    (other : ∀ send ∈ sends, ∀ s, r.sends.get? send = some s → s.state ≠ .held) :
    Keeps [] [] r (sends.foldl (·.setState · .closed) r) := by
  induction sends generalizing r with
  | nil => exact .refl h
  | cons send rest ih =>
    have tried : SendState.closed ≠ .held := by simp
    have one := keeps_close h send tried (other send List.mem_cons_self)
    refine one.trans (ih one.consistent ?_)
    intro w mem
    exact not_held_setState tried (other w (List.mem_cons_of_mem _ mem))

/-- A subscription that is dropped is no longer the current one of its client. -/
theorem keeps_unsubscribe (h : r.Consistent) (id : SubscriptionId) :
    Keeps [] [] r (r.unsubscribe id) := by
  unfold unsubscribe
  cases found : r.connections.get? id with
  | none => exact .refl h
  | some c =>
    dsimp only
    generalize freed :
      (if (r.numbered? c.client id).isSome then r.slots.erase c.client else r.slots) = slots
    have left : ∀ client' id', slots.get? client' = some id' →
        id' ≠ id ∧ r.slots.get? client' = some id' := by
      intro client' id' slot
      rw [← freed] at slot
      split at slot
      · next current =>
        rw [Table.get?_erase] at slot
        split at slot
        · cases slot
        · next other =>
          refine ⟨?_, slot⟩
          rintro rfl
          obtain ⟨c', there, own⟩ := h.slots client' id' slot
          rw [found] at there
          cases there
          exact other own.symm
      · next current =>
        refine ⟨?_, slot⟩
        rintro rfl
        obtain ⟨c', there, own⟩ := h.slots client' id' slot
        rw [found] at there
        cases there
        rw [numbered_of_slot (own.symm ▸ slot)] at current
        exact current rfl
    have old : ∀ {id' c'}, (r.connections.erase id).get? id' = some c' →
        r.connections.get? id' = some c' := by
      intro id' c' there
      rw [Table.get?_erase] at there
      split at there
      · cases there
      · exact there
    have dropped : Keeps [] [] r { r with slots, connections := r.connections.erase id } := by
      refine ⟨⟨?_, ?_, ?_⟩, ?_, Nat.le_refl _, ?_, ?_, ?_, fun _ _ _ s _ => s⟩
      · intro client' id' slot
        obtain ⟨other, slot⟩ := left client' id' slot
        obtain ⟨c', there, own⟩ := h.slots client' id' slot
        exact ⟨c', (Table.get?_erase _ _ _).trans ((if_neg other).trans there), own⟩
      · intro id' c' there
        obtain ⟨opened, own, line⟩ := h.connections id' c' (old there)
        exact ⟨opened, own, line⟩
      · intro send s there
        obtain ⟨started, opened, own⟩ := h.sends send s there
        exact ⟨started, opened, fun c' there => own c' (old there)⟩
      · rintro id' client' ⟨opened, own⟩
        exact ⟨opened, fun c' there => own c' (old there)⟩
      · intro client' id' _ slot
        exact (left client' id' slot).2
      · intro client' id' n _ slot mem
        unfold noticesOf at mem ⊢
        rw [Table.get?_erase, if_neg (left client' id' slot).1]
        exact .inl mem
      · rintro id' client' ⟨c', there, own, grants⟩
        exact .inl ⟨c', old there, own, grants⟩
    refine dropped.trans (keeps_closeAll dropped.consistent _ ?_)
    intro send mem s there
    exact (((h.connections id c found).line send mem).2 s there).2

/-! ### Sends -/

theorem keeps_lookUp (h : r.Consistent) {date : Instant}
    (found : r.lookUp client date = some (send, r')) :
    Keeps [] [] r r' ∧ ∃ id, r.slots.get? client = some id ∧
      r'.sends.get? send = some { subscription := id, notice := { client, date } } := by
  obtain ⟨id, slot, found⟩ := Option.map_eq_some_iff.1 found
  obtain ⟨rfl, rfl⟩ := Prod.mk.inj found
  obtain ⟨c, there, own⟩ := h.slots client id slot
  have other : ∀ {w}, w < r.nextSend → ∀ {s}, (r.sends.put r.nextSend s).get? w =
      r.sends.get? w := by
    intro w started s
    exact (Table.get?_put _ _ _ _).trans (if_neg (Nat.ne_of_lt started))
  refine ⟨⟨⟨h.slots, ?_, ?_⟩, fun _ _ b => ⟨b.opened, b.client⟩, Nat.le_refl _,
    fun _ _ _ slot => slot, fun _ _ _ _ _ mem => .inl mem, fun _ _ => .inl, ?_⟩, id, slot,
    (Table.get?_put _ _ _ _).trans (if_pos rfl)⟩
  · intro id' c' there
    obtain ⟨opened, own, line⟩ := h.connections id' c' there
    refine ⟨opened, own, fun w mem => ?_⟩
    obtain ⟨started, sent⟩ := line w mem
    exact ⟨Nat.lt_succ_of_lt started, fun s there => sent s ((other started).symm.trans there)⟩
  · intro w s new
    rw [Table.get?_put] at new
    split at new
    · next same =>
      cases new
      refine ⟨same ▸ Nat.lt_succ_self _, (h.connections id c there).opened, ?_⟩
      intro c' there'
      rw [there] at there'
      cases there'
      exact own
    · obtain ⟨started, opened, own⟩ := h.sends w s new
      exact ⟨Nat.lt_succ_of_lt started, opened, own⟩
  · intro w s _ there _
    exact (other (h.sends w s there).1).trans there

/-- A send puts its notice on a connection whose line is no longer than it was. -/
theorem keeps_bring (h : r.Consistent) {s : Send} {c : Connection} (c' : Connection)
    (found : r.sends.get? send = some s) (there : r.connections.get? s.subscription = some c)
    (client : c'.client = c.client) (buffer : c'.buffer = c.buffer)
    (granted : ∀ w ∈ c'.granted, w ∈ c.granted) (waiting : c'.waiting = c.waiting) :
    Keeps [] [send] r (r.bring send s c') := by
  obtain ⟨-, belongs⟩ := h.sends send s found
  obtain ⟨-, own, line⟩ := h.connections s.subscription c there
  have brought : Keeps [] [] r { r with
      connections :=
        r.connections.put s.subscription { c' with buffer := c'.buffer ++ [s.notice] } } := by
    refine keeps_connection h _ there client ?_ ?_ ?_ ?_
    · rw [buffer]
      exact List.forall_mem_append.2
        ⟨own, List.forall_mem_singleton.2 (belongs.client c there).symm⟩
    · intro w mem
      refine line w ?_
      rw [Connection.line, List.mem_append, waiting] at mem
      exact List.mem_append.2 (mem.imp_left (granted w))
    · intro n mem
      rw [buffer]
      exact .inl (List.mem_append_left _ mem)
    · intro some_
      obtain ⟨w, mem⟩ := List.exists_mem_of_ne_nil _ some_
      exact .inl (List.ne_nil_of_mem (granted w mem))
  exact brought.trans (keeps_setState brought.consistent send (by simp))

theorem keeps_wait (h : r.Consistent) {s : Send} {c : Connection}
    (found : r.sends.get? send = some s) (there : r.connections.get? s.subscription = some c) :
    Keeps [] [send] r (setState { r with
      connections := r.connections.put s.subscription { c with waiting := c.waiting ++ [send] } }
        send .waiting) := by
  obtain ⟨started, -⟩ := h.sends send s found
  obtain ⟨-, own, -⟩ := h.connections s.subscription c there
  -- the send is no longer held when it joins those that wait
  have tried : SendState.waiting ≠ .held := by simp
  have marked : Keeps [] [send] r (r.setState send .waiting) := keeps_setState h send tried
  have state : r.setState send .waiting =
      { r with sends := r.sends.put send { s with state := .waiting } } := by
    simp only [setState, found]
  rw [setState_connections]
  rw [state] at marked ⊢
  refine marked.trans (keeps_connection marked.consistent _ there rfl own ?_
    (fun n mem => .inl mem) .inl)
  intro w mem
  rw [Connection.line, ← List.append_assoc] at mem
  rcases List.mem_append.1 mem with old | new
  · exact (marked.consistent.connections s.subscription c there).line w old
  · rw [List.mem_singleton.1 new]
    refine ⟨started, fun s' there' => ?_⟩
    rw [Table.get?_put, if_pos rfl, Option.some.injEq] at there'
    rw [← there']
    exact ⟨rfl, tried⟩

theorem keeps_attempt (h : r.Consistent) (send : SendId) :
    Keeps [] [send] r (r.attempt send) := by
  unfold attempt
  cases found : r.sends.get? send with
  | none => exact .refl h
  | some s =>
    dsimp only
    split
    · exact keeps_setState h send (by simp)
    · next c state there =>
      split
      · exact keeps_bring h c found there rfl rfl (fun _ mem => mem) rfl
      · exact keeps_wait h found there
    · next c state there =>
      split
      · exact keeps_bring h { c with granted := c.granted.filter (· ≠ send) } found there rfl rfl
          (fun w mem => (List.mem_filter.1 mem).1) rfl
      · exact .refl h
    · exact .refl h

theorem keeps_forget (h : r.Consistent) (send : SendId) : Keeps [] [send] r (r.forget send) := by
  unfold forget
  cases found : r.sends.get? send with
  | none => exact .refl h
  | some s =>
    have erased : Keeps [] [send] r { r with sends := r.sends.erase send } :=
      keeps_eraseSend h send
    dsimp only
    cases there : r.connections.get? s.subscription with
    | none => exact erased
    | some c =>
      obtain ⟨-, own, line⟩ := erased.consistent.connections s.subscription c there
      refine erased.trans (keeps_connection erased.consistent _ there
        (Connection.client_withdraw c send) ?_ ?_ ?_ ?_)
      · rw [Connection.buffer_withdraw]
        exact own
      · intro w mem
        rw [Connection.line_withdraw] at mem
        exact line w (List.mem_filter.1 mem).1
      · intro n mem
        rw [Connection.buffer_withdraw]
        exact .inl mem
      · intro some_
        exact .inl (Connection.granted_of_withdraw some_)

/-! ### Clients that are told -/

/-- A connection without room has a notice, or keeps room for one. -/
theorem exists_of_full (h : r.Consistent) {c : Connection} (found : r.connections.get? id = some c)
    (full : c.hasRoom ≠ true) :
    (∃ n ∈ r.noticesOf id, n.client = c.client) ∨ r.IsGranting id c.client := by
  by_cases grants : c.granted = []
  · cases first : c.buffer with
    | nil =>
      rw [Connection.hasRoom, first, grants] at full
      exact absurd (by decide) full
    | cons n rest =>
      have mem : n ∈ c.buffer := by
        rw [first]
        exact List.mem_cons_self
      refine .inl ⟨n, ?_, (h.connections id c found).own n mem⟩
      simp only [noticesOf, found]
      exact mem
  · exact .inr ⟨c, found, rfl, grants⟩

theorem noticesOf_put (r : Watchers) (id : SubscriptionId) (c : Connection) :
    noticesOf { r with connections := r.connections.put id c } id = c.buffer := by
  simp only [noticesOf, Table.get?_put, if_true]

theorem noticesOf_setState (r : Watchers) (send : SendId) (state : SendState)
    (id : SubscriptionId) : (r.setState send state).noticesOf id = r.noticesOf id := by
  unfold setState
  cases r.sends.get? send <;> rfl

theorem noticesOf_forget (r : Watchers) (send : SendId) (id : SubscriptionId) :
    (r.forget send).noticesOf id = r.noticesOf id := by
  unfold forget
  cases r.sends.get? send with
  | none => rfl
  | some s =>
    dsimp only
    cases there : r.connections.get? s.subscription with
    | none => rfl
    | some c =>
      unfold noticesOf
      rw [Table.get?_put]
      by_cases same : id = s.subscription
      · rw [if_pos same, same, there]
        exact Connection.buffer_withdraw c send
      · rw [if_neg same]

/-- A send that has its connection leaves a notice there, unless there is one or room is kept for
one that is to come. -/
theorem told_of_attempt (h : r.Consistent) {s : Send} {c : Connection}
    (found : r.sends.get? send = some s) (held : s.state = .held)
    (there : r.connections.get? s.subscription = some c) :
    (∃ n ∈ (r.attempt send).noticesOf s.subscription, n.client = c.client) ∨
      r.IsGranting s.subscription c.client := by
  simp only [attempt, found, held, there]
  split
  · obtain ⟨-, belongs⟩ := h.sends send s found
    refine .inl ⟨s.notice, ?_, (belongs.client c there).symm⟩
    rw [bring, noticesOf_setState, noticesOf_put]
    exact List.mem_append_right _ List.mem_cons_self
  · next full =>
    rcases exists_of_full h there full with ⟨n, mem, own⟩ | grants
    · refine .inl ⟨n, ?_, own⟩
      rw [noticesOf_setState, noticesOf_put]
      simp only [noticesOf, there] at mem
      exact mem
    · exact .inr grants

/-- A notice that is put on the current subscription is there, unless there is one or room is kept
for one that is to come. -/
theorem told_of_push (h : r.Consistent) (notice : Notice)
    (current : r.slots.get? notice.client = some id) :
    (∃ n ∈ (r.push id notice).noticesOf id, n.client = notice.client) ∨
      r.IsGranting id notice.client := by
  obtain ⟨c, there, own⟩ := h.slots notice.client id current
  have numbered : r.numbered? c.client id = some id := numbered_of_slot (own.symm ▸ current)
  simp only [push, there, Option.bind_some, numbered, offer]
  split
  · rw [noticesOf_put]
    exact .inl ⟨notice, List.mem_append_right _ List.mem_cons_self, rfl⟩
  · next full =>
    rw [← own]
    exact exists_of_full h there full

end Watchers

end Relay
