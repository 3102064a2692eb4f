import Relay.Proofs.Cafe.Traffic
import Relay.Proofs.Content.Soundness

/-!
# What stands behind an inbox entry

However requests come between each other and wherever they break off, an inbox entry names a
message that is stored and can be opened, with its update's node, the block that came along, and
all that the node leads to (`Traffic.inbox_integrity`). What the message brought stays pinned
until a request takes the pin away. The proof says what holds in each stage of a delivery
(`Delivery.Reached`) and that no other request can undo it.
-/

namespace Relay

open ObjectStore

namespace Traffic

/-- An id is pinned in the mode of its codec, unless a request has taken the pin away since. -/
def Kept (σ : Traffic) (id : ContentId) : Prop :=
  σ.cafe.content.IsPinned id ∨ id ∈ σ.released

structure Keeps (σ : Traffic) (id : ContentId) (bytes : Bytes) : Prop where
  block : σ.cafe.content.disk.blocks.get? id = some (.file bytes)
  kept : σ.Kept id

/-- The objects of an update are there. -/
structure Brought (σ : Traffic) (u : ThreadUpdate) (node : Node) : Prop where
  nodeKept : σ.Keeps (.of .node u.node) u.node
  decodes : Node.ofBytes u.node = .ok node
  blockKept : ∀ b ∈ u.block, σ.Keeps (.of .raw b) b

/-- All that a node leads to is stored. -/
def Closed (σ : Traffic) (node : Node) : Prop :=
  ∀ id, Reaches σ.cafe.content node id → σ.cafe.content.disk.blocks.get? id ≠ none

/-- An inbox entry names a message that is there, with all that belongs to it. -/
def Intact (σ : Traffic) (entry : String) : Prop :=
  ∃ body e u node, entry = (ContentId.of .raw body).text ∧ σ.Keeps (.of .raw body) body ∧
    Envelope.ofBytes body = .ok e ∧ e.threadUpdate = .ok u ∧ σ.Brought u node ∧
    ∀ id, Reaches σ.cafe.content node id → σ.cafe.content.Available id

/-! ### Later states -/

/-- What was stored and kept still is. -/
structure Later (σ τ : Traffic) : Prop where
  grows : Grows σ.cafe.content τ.cafe.content
  kept : ∀ id, σ.Kept id → τ.Kept id

variable {S : List Bytes} {σ τ : Traffic} {u : ThreadUpdate} {node : Node} {id : ContentId}
  {bytes : Bytes}

theorem Keeps.later (h : σ.Keeps id bytes) (later : Later σ τ) : τ.Keeps id bytes :=
  ⟨later.grows _ _ h.block, later.kept _ h.kept⟩

theorem Brought.later (h : σ.Brought u node) (later : Later σ τ) : τ.Brought u node :=
  ⟨h.nodeKept.later later, h.decodes, fun b mem => (h.blockKept b mem).later later⟩

theorem Closed.later (h : σ.Closed node) (later : Later σ τ) : τ.Closed node := by
  intro id reached
  have there := h id (later.grows.reaches h reached)
  rw [later.grows.present there]
  exact there

theorem Intact.later {entry : String} (h : σ.Intact entry) (later : Later σ τ)
    (sound : Sound S τ.cafe.content) : τ.Intact entry := by
  obtain ⟨body, e, u, node, named, message, opened, update, brought, stored⟩ := h
  refine ⟨body, e, u, node, named, message.later later, opened, update, brought.later later, ?_⟩
  intro id reached
  have closed : σ.Closed node := by
    intro id reached
    obtain ⟨bytes, file, -⟩ := stored id reached
    rw [file]
    exact fun h => by cases h
  exact sound.available (closed.later later id reached)

end Traffic

/-! ### The stages of a delivery -/

namespace Delivery

open Traffic

/-- What a delivery has seen to when it comes to a stage. -/
def Reached (d : Delivery) (σ : Traffic) : Stage → Prop
  | .pinNode u => d.update = .ok u
  | .readNode u id => d.update = .ok u ∧ id = .of .node u.node ∧
      σ.Keeps (.of .node u.node) u.node
  | .pinBlock u node => d.update = .ok u ∧ Node.ofBytes u.node = .ok node ∧
      σ.Keeps (.of .node u.node) u.node
  | .walk w => ∃ u node, d.update = .ok u ∧ σ.Brought u node ∧ w.Covers σ.cafe.content node
  | .pinBody => ∃ u node, d.update = .ok u ∧ σ.Brought u node ∧ σ.Closed node
  | .record id => id = d.bodyId ∧ σ.Keeps d.bodyId d.body ∧
      ∃ u node, d.update = .ok u ∧ σ.Brought u node ∧ σ.Closed node
  | _ => True

variable {S : List Bytes} {σ τ : Traffic} {d : Delivery} {stage : Stage}

theorem Reached.later (h : d.Reached σ stage) (later : Later σ τ) : d.Reached τ stage := by
  cases stage with
  | readNode u id => exact ⟨h.1, h.2.1, h.2.2.later later⟩
  | pinBlock u node => exact ⟨h.1, h.2.1, h.2.2.later later⟩
  | walk w =>
    obtain ⟨u, node, update, brought, covers⟩ := h
    exact ⟨u, node, update, brought.later later, covers.grows later.grows⟩
  | pinBody =>
    obtain ⟨u, node, update, brought, closed⟩ := h
    exact ⟨u, node, update, brought.later later, closed.later later⟩
  | record id =>
    obtain ⟨named, message, u, node, update, brought, closed⟩ := h
    exact ⟨named, message.later later, u, node, update, brought.later later, closed.later later⟩
  | _ => exact h

/-- A delivery that can be put into the inbox makes an entry that is intact. -/
theorem Reached.intact {id : ContentId} (h : d.Reached σ (.record id))
    (sound : Sound S σ.cafe.content) : σ.Intact id.text := by
  obtain ⟨rfl, message, u, node, update, brought, closed⟩ := h
  obtain ⟨e, opened, opens, -⟩ := update_eq_ok update
  exact ⟨d.body, e, u, node, rfl, message, opened, opens, brought,
    fun id reached => sound.available (closed id reached)⟩

end Delivery

namespace Task

open Traffic Delivery

def Reached (σ : Traffic) : Task → Prop
  | .deliver d stage => d.Reached σ stage
  | _ => True

variable {S : List Bytes} {σ τ : Traffic} {t : Task} {d : Delivery} {stage : Stage}

theorem Reached.later (h : t.Reached σ) (later : Later σ τ) : t.Reached τ := by
  cases t with
  | deliver d stage => exact Delivery.Reached.later h later
  | _ => trivial

/-! ### Changes of the records -/

/-- What was checked and not refused is done. -/
theorem next_of_checked {α : Type} {check : Except RecordError Unit}
    {next : Unit → Except RecordError α} {a : α} (h : check >>= next = .ok a) :
    next () = .ok a := by
  cases check with
  | error e => cases h
  | ok checked => exact h

theorem putMessage_eq_ok {m : Message} {c c' : Cafe} (h : c.putMessage m = .ok c') :
    c' = { c with records := c.records.putMessage m } := by
  cases next_of_checked h
  rfl

structure Untouched (c c' : Cafe) : Prop where
  content : c'.content = c.content
  messages : c'.records.messages = c.records.messages

theorem untouched_putSnapshot {s : Snapshot} {c c' : Cafe} (h : c.putSnapshot s = .ok c') :
    Untouched c c' := by
  cases next_of_checked h
  exact ⟨rfl, rfl⟩

theorem untouched_dropSnapshot {thread client : String} {c c' : Cafe}
    (h : c.dropSnapshot thread client = .ok c') : Untouched c c' := by
  cases next_of_checked h
  exact ⟨rfl, rfl⟩

theorem untouched_addClient {client : Client} {c c' : Cafe} (h : c.addClient client = .ok c') :
    Untouched c c' := by
  have added := next_of_checked h
  cases adds : c.records.addClient client with
  | error e =>
    rw [adds] at added
    cases added
  | ok records =>
    rw [adds] at added
    cases added
    unfold Records.addClient at adds
    split at adds
    · cases adds
    · cases adds
      exact ⟨rfl, rfl⟩

/-! ### Steps of requests -/

/-- A step that spoils nothing: what it stores is sound, the request goes on with all it needs, and
an inbox entry that it adds is intact. -/
structure Harmless (S : List Bytes) (σ : Traffic) (t t' : Task) (c : Cafe) : Prop where
  evolves : Evolves S t.unpins σ.cafe.content c.content
  reached : ∀ τ, τ.cafe.content = c.content → Later σ τ → t'.Reached τ
  inbox : ∀ key ∈ c.records.messages.keys,
    key ∈ σ.cafe.records.messages.keys ∨ σ.Intact key.1

theorem harmless_of_same {t t' : Task} {c : Cafe} (sound : Sound S σ.cafe.content)
    (none : t.unpins = []) (same : Untouched σ.cafe c)
    (reached : ∀ τ, Later σ τ → t'.Reached τ) : Harmless S σ t t' c where
  evolves := by
    rw [none, same.content]
    exact .refl sound
  reached := fun τ _ later => reached τ later
  inbox := fun key mem => .inl (same.messages ▸ mem)

theorem harmless_after {α : Type} {op : Op α} {post : Except ObjectError α → ObjectStore → Prop}
    (runs : Runs op σ.cafe.content post) (next : α → Stage)
    (evolves : ∀ r s, post r s → Evolves S [] σ.cafe.content s)
    (reached : ∀ a s, post (.ok a) s → ∀ τ, τ.cafe.content = s → Later σ τ →
      d.Reached τ (next a)) :
    Harmless S σ (.deliver d stage) (.deliver d (after op next σ.cafe).1)
      (after op next σ.cafe).2 := by
  rcases after_cases runs next with ⟨a, content, holds, ran⟩ | ⟨e, content, holds, ran⟩
  · rw [ran]
    exact ⟨evolves _ _ holds, fun τ same later => reached a content holds τ same later,
      fun key mem => .inl mem⟩
  · rw [ran]
    exact ⟨evolves _ _ holds, fun _ _ _ => trivial, fun key mem => .inl mem⟩

theorem keeps_of_held {id : ContentId} {bytes : Bytes} {s : ObjectStore} (held : Held s id bytes)
    (same : τ.cafe.content = s) : τ.Keeps id bytes :=
  ⟨same ▸ held.block, .inl (same ▸ held.pinned)⟩

theorem harmless_pinNode (free : CollisionFree S) (sound : Sound S σ.cafe.content)
    (now : Instant) {u : ThreadUpdate} (update : d.update = .ok u) (stored : u.node ∈ S) :
    Harmless S σ (.deliver d (.pinNode u)) (.deliver d (d.step now (.pinNode u) σ.cafe).1)
      (d.step now (.pinNode u) σ.cafe).2 := by
  refine harmless_after (evolves_pinAsNode sound free stored) _ (fun _ _ h => h.1) ?_
  rintro id s ⟨-, outcome⟩ τ same later
  obtain ⟨named, held, -⟩ := outcome id rfl
  subst named
  exact ⟨update, rfl, keeps_of_held held same⟩

theorem harmless_readNode (sound : Sound S σ.cafe.content) (now : Instant)
    {u : ThreadUpdate} {id : ContentId} (h : d.Reached σ (.readNode u id)) :
    Harmless S σ (.deliver d (.readNode u id)) (.deliver d (d.step now (.readNode u id) σ.cafe).1)
      (d.step now (.readNode u id) σ.cafe).2 := by
  obtain ⟨update, rfl, kept⟩ := h
  refine harmless_after (runs_readNode _ _) _ (fun r s h => evolves_quiet sound h.1) ?_
  rintro node s ⟨-, found⟩ τ same later
  obtain ⟨-, bytes, file, decoded⟩ := found node rfl
  rw [kept.block] at file
  cases file
  exact ⟨update, decoded, kept.later later⟩

theorem harmless_pinBlock (free : CollisionFree S) (sound : Sound S σ.cafe.content)
    (now : Instant) {u : ThreadUpdate} {node : Node} (h : d.Reached σ (.pinBlock u node))
    (stored : u.block.toList ⊆ S) :
    Harmless S σ (.deliver d (.pinBlock u node))
      (.deliver d (d.step now (.pinBlock u node) σ.cafe).1)
      (d.step now (.pinBlock u node) σ.cafe).2 := by
  obtain ⟨update, decodes, kept⟩ := h
  simp only [Delivery.step]
  cases carried : u.block with
  | none =>
    refine harmless_of_same sound rfl ⟨rfl, rfl⟩ fun τ later => ⟨u, node, update, ?_, ?_⟩
    · refine ⟨kept.later later, decodes, fun b mem => ?_⟩
      rw [carried] at mem
      cases mem
    · refine Walk.covers_ofNode node fun id mem => ?_
      cases mem
  | some b =>
    have stored : b ∈ S := stored (by rw [carried]; exact List.mem_cons_self)
    refine harmless_after (evolves_pinAsBytes sound free stored) _ (fun _ _ h => h.1) ?_
    rintro id s ⟨-, outcome⟩ τ same later
    obtain ⟨rfl, held⟩ := outcome id rfl
    have block := keeps_of_held held same
    refine ⟨u, node, update, ⟨kept.later later, decodes, fun b' mem => ?_⟩, ?_⟩
    · rw [carried] at mem
      cases mem
      exact block
    · refine Walk.covers_ofNode node fun id mem => ?_
      cases mem
      rw [block.block]
      exact ⟨rfl, fun h => by cases h⟩

theorem harmless_walk (sound : Sound S σ.cafe.content) (now : Instant) {w : Walk}
    (h : d.Reached σ (.walk w)) :
    Harmless S σ (.deliver d (.walk w)) (.deliver d (d.step now (.walk w) σ.cafe).1)
      (d.step now (.walk w) σ.cafe).2 := by
  obtain ⟨u, node, update, brought, covers⟩ := h
  simp only [Delivery.step]
  split
  · next ended =>
    have closed : σ.Closed node := fun id reached => Walk.stored_of_isOver covers ended reached
    refine harmless_of_same sound rfl ⟨rfl, rfl⟩ fun τ later => ?_
    exact ⟨u, node, update, brought.later later, closed.later later⟩
  · refine harmless_after (w.runs_step _) _ (fun r s h => evolves_quiet sound h.1) ?_
    rintro w' s ⟨-, goes⟩ τ same later
    exact ⟨u, node, update, brought.later later, (goes w' node rfl covers).grows later.grows⟩

theorem harmless_pinBody (free : CollisionFree S) (sound : Sound S σ.cafe.content)
    (now : Instant) (h : d.Reached σ .pinBody) (stored : d.body ∈ S) :
    Harmless S σ (.deliver d .pinBody) (.deliver d (d.step now .pinBody σ.cafe).1)
      (d.step now .pinBody σ.cafe).2 := by
  obtain ⟨u, node, update, brought, closed⟩ := h
  refine harmless_after (evolves_pinAsBytes sound free stored) _ (fun _ _ h => h.1) ?_
  rintro id s ⟨-, outcome⟩ τ same later
  obtain ⟨rfl, held⟩ := outcome id rfl
  exact ⟨rfl, keeps_of_held held same, u, node, update, brought.later later, closed.later later⟩

theorem harmless_record (sound : Sound S σ.cafe.content) (now : Instant) {id : ContentId}
    (h : d.Reached σ (.record id)) :
    Harmless S σ (.deliver d (.record id)) (.deliver d (d.step now (.record id) σ.cafe).1)
      (d.step now (.record id) σ.cafe).2 := by
  simp only [Delivery.step]
  split
  · next recorded =>
    rw [putMessage_eq_ok recorded]
    refine ⟨.refl sound, fun _ _ _ => trivial, fun key mem => ?_⟩
    -- a message that comes again keeps its entry
    simp only [Records.putMessage, Table.keys_put] at mem
    split at mem
    · exact .inl mem
    · rcases List.mem_append.1 mem with old | new
      · exact .inl old
      · rw [List.mem_singleton.1 new]
        exact .inr (h.intact sound)
  · exact harmless_of_same sound rfl ⟨rfl, rfl⟩ fun _ _ => trivial

theorem harmless_deliver (free : CollisionFree S) (sound : Sound S σ.cafe.content)
    (now : Instant) (h : d.Reached σ stage) (stored : (Task.deliver d stage).strings ⊆ S) :
    Harmless S σ (.deliver d stage) (.deliver d (d.step now stage σ.cafe).1)
      (d.step now stage σ.cafe).2 := by
  cases stage with
  | lookUp =>
    simp only [Delivery.step]
    split
    · exact harmless_of_same sound rfl ⟨rfl, rfl⟩ fun _ _ => trivial
    · exact harmless_of_same sound rfl ⟨rfl, rfl⟩ fun _ _ => trivial
    · split
      · exact harmless_of_same sound rfl ⟨rfl, rfl⟩ fun _ _ => trivial
      · next update => exact harmless_of_same sound rfl ⟨rfl, rfl⟩ fun τ _ => update
  | pinNode u => exact harmless_pinNode free sound now h (stored List.mem_cons_self)
  | readNode u id => exact harmless_readNode sound now h
  | pinBlock u node => exact harmless_pinBlock free sound now h stored
  | walk w => exact harmless_walk sound now h
  | pinBody => exact harmless_pinBody free sound now h (stored List.mem_cons_self)
  | record id => exact harmless_record sound now h
  | announce id => exact harmless_of_same sound rfl ⟨rfl, rfl⟩ fun _ _ => trivial
  | finished r => exact harmless_of_same sound rfl ⟨rfl, rfl⟩ fun _ _ => trivial

/-- A step of any other request needs nothing to hold where it goes on. -/
theorem harmless_withContent {α : Type} {op : Op α} {t t' : Task} {r : Except ObjectError α}
    {c : Cafe} (ran : σ.cafe.withContent op = (r, c))
    (runs : Runs op σ.cafe.content fun _ s => Evolves S t.unpins σ.cafe.content s)
    (reached : ∀ τ, t'.Reached τ) : Harmless S σ t t' c := by
  have cafe : c = (σ.cafe.withContent op).2 := by rw [ran]
  rw [cafe]
  exact ⟨runs, fun τ _ _ => reached τ, fun key mem => .inl mem⟩

theorem harmless_change {t : Task} {changed : Except RecordError Cafe}
    (sound : Sound S σ.cafe.content) (none : t.unpins = [])
    (same : ∀ c, changed = .ok c → Untouched σ.cafe c) :
    Harmless S σ t (change σ.cafe changed).1 (change σ.cafe changed).2 := by
  cases changed with
  | ok c => exact harmless_of_same sound none (same c rfl) fun _ _ => trivial
  | error e => exact harmless_of_same sound none ⟨rfl, rfl⟩ fun _ _ => trivial

theorem harmless_keep (free : CollisionFree S) (sound : Sound S σ.cafe.content) (now : Instant)
    {bytes : Bytes} (stored : bytes ∈ S) :
    Harmless S σ (.keep bytes) (step now (.keep bytes) σ.cafe).1
      (step now (.keep bytes) σ.cafe).2 := by
  have runs := (evolves_pinAsNode sound free stored).mono fun _ _ h => h.1
  simp only [step]
  split
  · next ran => exact harmless_withContent ran runs fun _ => trivial
  · next ran => exact harmless_withContent ran runs fun _ => trivial

theorem harmless_keepRaw (free : CollisionFree S) (sound : Sound S σ.cafe.content)
    (now : Instant) {bytes : Bytes} (stored : bytes ∈ S) :
    Harmless S σ (.keepRaw bytes) (step now (.keepRaw bytes) σ.cafe).1
      (step now (.keepRaw bytes) σ.cafe).2 :=
  harmless_withContent rfl ((evolves_pinAsBytes sound free stored).mono fun _ _ h => h.1)
    fun _ => trivial

theorem harmless_release (sound : Sound S σ.cafe.content) (now : Instant) (id : ContentId) :
    Harmless S σ (.release id) (step now (.release id) σ.cafe).1
      (step now (.release id) σ.cafe).2 := by
  have runs := (runs_status id σ.cafe.content).mono fun r s h => evolves_quiet sound h
  simp only [step]
  split
  · next ran =>
    refine harmless_withContent ran runs fun τ => ?_
    split <;> trivial
  · next ran => exact harmless_withContent ran runs fun _ => trivial

theorem harmless_step (free : CollisionFree S) (sound : Sound S σ.cafe.content) (now : Instant)
    (h : t.Reached σ) (stored : t.strings ⊆ S) :
    Harmless S σ t (t.step now σ.cafe).1 (t.step now σ.cafe).2 := by
  cases t with
  | deliver d stage => exact harmless_deliver free sound now h stored
  | keep bytes => exact harmless_keep free sound now (stored List.mem_cons_self)
  | keepRaw bytes => exact harmless_keepRaw free sound now (stored List.mem_cons_self)
  | release id => exact harmless_release sound now id
  | unpin id => exact harmless_withContent rfl (evolves_unpin sound id) fun _ => trivial
  | putThread client thread ciphertext =>
    simp only [step]
    split
    · exact harmless_of_same sound rfl ⟨rfl, rfl⟩ fun _ _ => trivial
    · exact harmless_of_same sound rfl ⟨rfl, rfl⟩ fun _ _ => trivial
  | writeThread s => exact harmless_change sound rfl fun c => untouched_putSnapshot
  | dropThread client thread =>
    simp only [step]
    split
    · exact harmless_of_same sound rfl ⟨rfl, rfl⟩ fun _ _ => trivial
    · exact harmless_of_same sound rfl ⟨rfl, rfl⟩ fun _ _ => trivial
  | eraseThread client thread =>
    exact harmless_change sound rfl fun c => untouched_dropSnapshot
  | register client => exact harmless_change sound rfl fun c => untouched_addClient
  | done => exact harmless_of_same sound rfl ⟨rfl, rfl⟩ fun _ _ => trivial

end Task

/-! ### Runs -/

namespace Traffic

structure Holds (S : List Bytes) (σ : Traffic) : Prop where
  sound : Sound S σ.cafe.content
  reached : ∀ t ∈ σ.tasks, t.Reached σ
  intact : ∀ key ∈ σ.cafe.records.messages.keys, σ.Intact key.1

variable {S : List Bytes} {σ τ : Traffic}

theorem sound_start (config : Config) : Sound S (start config).cafe.content := by
  constructor
  · intro id e entry
    cases entry
  · intro id e entry
    cases entry

theorem holds_start (config : Config) : Holds S (start config) where
  sound := sound_start config
  reached := fun _ mem => nomatch mem
  intact := fun _ mem => nomatch mem

/-- An id stays kept, since a step that takes its pin away releases it. -/
theorem later_advance {t : Task} {place : Nat} {now : Instant}
    (evolves : Evolves S t.unpins σ.cafe.content (t.step now σ.cafe).2.content) :
    Later σ (σ.advance place now t) where
  grows := evolves.grows
  kept := by
    intro id kept
    by_cases none : (t.step now σ.cafe).2.content.disk.pins.get? id = none
    · refine .inr (mem_releasedBy.2 ⟨?_, none⟩)
      rcases kept with pinned | released
      · have there : σ.cafe.content.disk.pins.get? id ≠ Option.none := by
          rw [pinned]
          exact fun h => by cases h
        exact .inl ⟨evolves.lost id there none, there⟩
      · exact .inr released
    · exact .inl (evolves.sound.isPinned none)

theorem holds_advance (free : CollisionFree S) (h : Holds S σ) {t : Task} {place : Nat}
    (now : Instant) (next : t ∈ σ.tasks) (stored : t.strings ⊆ S) :
    Holds S (σ.advance place now t) := by
  have harmless := Task.harmless_step free h.sound now (h.reached t next) stored
  have later : Later σ (σ.advance place now t) := later_advance harmless.evolves
  refine ⟨harmless.evolves.sound, fun t' mem => ?_, fun key mem => ?_⟩
  -- the request that did the step has all it needs next; the others lose nothing
  · rcases List.mem_or_eq_of_mem_set mem with old | rfl
    · exact (h.reached t' old).later later
    · exact harmless.reached _ rfl later
  · rcases harmless.inbox key mem with old | intact
    · exact (h.intact key old).later later harmless.evolves.sound
    · exact intact.later later harmless.evolves.sound

theorem holds_disturb (h : Holds S σ) (faults : List (Option IoError)) (registry mailbox : Bool) :
    Holds S (σ.step (.disturb faults registry mailbox)) := by
  have later : Later σ (σ.step (.disturb faults registry mailbox)) :=
    ⟨fun id e there => there, fun id kept => kept⟩
  have sound : Sound S (σ.step (.disturb faults registry mailbox)).cafe.content :=
    ⟨h.sound.blocks, h.sound.pins⟩
  exact ⟨sound, fun t mem => (h.reached t mem).later later,
    fun key mem => (h.intact key mem).later later sound⟩

theorem holds_arrive (h : Holds S σ) (o : Order) : Holds S (σ.step (.arrive o)) := by
  have later : Later σ (σ.step (.arrive o)) := ⟨fun id e there => there, fun id kept => kept⟩
  refine ⟨h.sound, fun t mem => ?_, fun key mem => (h.intact key mem).later later h.sound⟩
  rcases List.mem_append.1 mem with old | new
  · exact (h.reached t old).later later
  · rw [List.mem_singleton.1 new]
    cases o <;> trivial

theorem holds_step (free : CollisionFree S) (h : Holds S σ) (e : Event)
    (stored : (σ.step e).given ⊆ S) : Holds S (σ.step e) := by
  cases e with
  | arrive o => exact holds_arrive h o
  | disturb faults registry mailbox => exact holds_disturb h faults registry mailbox
  | advance place now =>
    rw [step] at stored ⊢
    split at stored
    · next t next =>
      exact holds_advance free h now (List.mem_of_getElem? next)
        (List.Subset.trans (List.subset_append_left _ _) stored)
    · exact h

theorem holds_run (free : CollisionFree S) (events : List Event) (h : Holds S σ)
    (stored : (σ.run events).given ⊆ S) : Holds S (σ.run events) := by
  induction events generalizing σ with
  | nil => exact h
  | cons e rest ih =>
    exact ih (holds_step free h e (List.Subset.trans (given_subset_run _ rest) stored)) stored

/-- Whatever is asked of an empty cafe, and however the requests interleave, fail, or break off,
each inbox entry is intact, if no two of the byte strings to be stored have one hash. -/
theorem inbox_integrity (config : Config) (events : List Event)
    (free : CollisionFree ((start config).run events).given) :
    ∀ key ∈ ((start config).run events).cafe.records.messages.keys,
      ((start config).run events).Intact key.1 :=
  (holds_run free events (holds_start config) (List.Subset.refl _)).intact

/-! ### A pin taken away while a message comes -/

def leaf : Bytes := [9]

/-- An update with a block and a link to an object that does not come along. -/
def linking : ThreadUpdate :=
  let node : Node := { data := [1], links := [⟨"leaf", .of .raw leaf, 1⟩] }
  { thread := "t", node := node.toBytes, block := some [7] }

def linked : Delivery := { sender := "alice", recipient := "bob", body := linking.wrap.toBytes }

/-- The node of a message loses its pin before the message is in the inbox. -/
def crossing : List Event :=
  [.arrive (.register ⟨"bob", "", .epoch⟩), .arrive (.keep leaf), .arrive (.deliver linked),
    .arrive (.release (.of .node linking.node))] ++
  [0, 1, 1, 2, 2, 3, 3, 2, 2, 2, 2, 2, 2, 2].map fun place => .advance place .epoch

theorem crossing_intact : CollisionFree ((start {}).run crossing).given ∧
    (linked.bodyId.text, "bob") ∈ ((start {}).run crossing).cafe.records.messages.keys ∧
    .of .node linking.node ∈ ((start {}).run crossing).released ∧
    ((start {}).run crossing).Intact linked.bodyId.text := by
  have free : CollisionFree ((start {}).run crossing).given := by
    unfold CollisionFree
    decide +kernel
  have arrived : (linked.bodyId.text, "bob") ∈
      ((start {}).run crossing).cafe.records.messages.keys := by decide +kernel
  have intact := inbox_integrity {} crossing free (linked.bodyId.text, "bob") arrived
  exact ⟨free, arrived, by decide +kernel, intact⟩

end Traffic

end Relay
