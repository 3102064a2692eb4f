import Relay.Proofs.Cafe.Storing
import Relay.Proofs.Content.Seeking
import Relay.Proofs.Instant.Stored

/-!
# How a delivery ends

Where no file step fails and no lock is poisoned, a delivery is decided by what stands in the cafe
before it: the message is dropped if the recipient is not registered, it fails if the recipient's
record cannot be read, it is queued if it can be opened, its objects fit and nothing is missing that
its node leads to, and it is malformed if not (`Cafe.delivery_decided`). The proof says what is
known in each stage (`Delivery.Course`), one lemma per stage.
-/

namespace Relay

open ObjectStore

/-! ### Stores that requests leave behind -/

namespace Traffic

theorem tidy_run {σ : Traffic} (events : List Event) (h : σ.cafe.content.Tidy) :
    (σ.run events).cafe.content.Tidy := by
  induction events generalizing σ with
  | nil => exact h
  | cons e rest ih =>
    apply ih
    cases e with
    | arrive o => exact h
    | disturb faults registry mailbox => exact ⟨h.blocks, h.pins, h.scratch, h.fresh⟩
    | advance place now =>
      rw [step]
      split
      · next t _ =>
        rcases t.changes_step now σ.cafe with quiet | ⟨a, -, done⟩
        · exact h.quiet quiet
        · rw [advance, done]
          exact h.act a
      · exact h

/-- Whatever was asked and whatever has failed before, a store where nothing is going to fail is
at rest. -/
theorem atRest_run (config : Config) (events : List Event)
    (still : ((start config).run events).cafe.content.disk.faults = []) :
    ((start config).run events).cafe.content.AtRest where
  sound := ⟨_, sound_run events (sound_start config) (List.Subset.refl _)⟩
  tidy := tidy_run events (tidy_empty config.maxObjectSize)
  still := still

end Traffic

/-- The registry has a client of the id, and its record can be read. -/
def Cafe.ReadsClient (c : Cafe) (id : String) : Prop := ∃ client, c.client? id = .ok (some client)

theorem Cafe.ReadsClient.ne_none {c : Cafe} {id : String} (h : c.ReadsClient id) :
    c.client? id ≠ .ok none := by
  obtain ⟨client, known⟩ := h
  simp [known]

theorem Cafe.ReadsClient.ne_error {c : Cafe} {id : String} (h : c.ReadsClient id)
    (e : RecordError) : c.client? id ≠ .error e := by
  obtain ⟨client, known⟩ := h
  simp [known]

theorem Envelope.openAs_eq_ok_iff {α : Type} {e : Envelope} {kind : Kind}
    {reader : Wire.Reader α} {a : α} : e.openAs kind reader = .ok a ↔ e.kind = kind ∧
      Wire.decode reader e.payload = .ok a := by
  unfold Envelope.openAs
  split
  · next same =>
    rw [and_iff_right same]
    cases Wire.decode reader e.payload with
    | error fault =>
      change Except.error (Fault.malformedPayload fault) = .ok a ↔ _
      simp
    | ok a' =>
      change Except.ok a' = .ok a ↔ _
      simp
  · next other => simp [other]

namespace Delivery

variable {d : Delivery} {now : Instant} {c c₀ : Cafe} {u : ThreadUpdate} {root : Node}

/-! ### When a message is accepted -/

/-- What an update brings: its node, and the block that is shipped along. -/
def carried (u : ThreadUpdate) : List (ContentId × Bytes) :=
  (.of .node u.node, u.node) :: u.block.toList.map fun b => (.of .raw b, b)

/-- The content of a cafe once what an update brings has been added. -/
def stocked (c : Cafe) (u : ThreadUpdate) : ObjectStore := (carried u).foldl stock c.content

/-- A message for a client that carries an update, where the node `root` then stands under the id
of the update's node. -/
structure Accepted (d : Delivery) (c : Cafe) (u : ThreadUpdate) (root : Node) : Prop where
  registered : c.ReadsClient d.recipient
  opened : ∃ e, Envelope.ofBytes d.body = .ok e ∧ e.kind = .threadUpdate ∧
    Wire.decode ThreadUpdate.reader e.payload = .ok u
  decodes : ∃ node, Node.ofBytes u.node = .ok node
  found : (stocked c u).nodeAt? (.of .node u.node) = some root
  complete : ∀ id, Reaches (stocked c u) root id → (stocked c u).disk.blocks.get? id ≠ none
  fits : d.body.length ≤ c.content.limit

theorem update_eq_ok_iff : d.update = .ok u ↔ ∃ e, Envelope.ofBytes d.body = .ok e ∧
    e.kind = .threadUpdate ∧ Wire.decode ThreadUpdate.reader e.payload = .ok u := by
  unfold Delivery.update
  cases opened : Envelope.ofBytes d.body with
  | error fault => simp [bind, Except.bind]
  | ok e =>
    have opens : (Except.ok e >>= Envelope.threadUpdate) = e.threadUpdate := rfl
    rw [opens, Envelope.threadUpdate, Envelope.openAs_eq_ok_iff]
    simp

theorem Accepted.update (h : d.Accepted c u root) : d.update = .ok u := update_eq_ok_iff.2 h.opened

/-- A node is shorter than the message that brings it. -/
theorem length_node_lt (update : d.update = .ok u) : u.node.length < d.body.length := by
  obtain ⟨e, -, -, body, payload⟩ := update_eq_ok update
  rw [← body, Envelope.toBytes, ← payload, ThreadUpdate.toBytes]
  simp only [Wire.putBytes, Wire.putU32, Wire.putU64, List.length_append, length_littleEndian]
  omega

/-! ### The course of a delivery -/

/-- The answers to a delivery that began with `c₀`, with what each of them tells. -/
inductive Verdict (d : Delivery) (now : Instant) (c₀ : Cafe) :
    Except RequestError Outcome → Cafe → Prop
  | unread (e : RecordError) (failed : c₀.client? d.recipient = .error e) :
      Verdict d now c₀ (.error (.ofRecords e)) c₀
  | dropped (unknown : c₀.client? d.recipient = .ok none) : Verdict d now c₀ (.ok .dropped) c₀
  | refused {c : Cafe} (reason : String)
      (registered : c₀.ReadsClient d.recipient)
      (unfit : ∀ u root, ¬d.Accepted c₀ u root) :
      Verdict d now c₀ (.error (.malformedInput reason)) c
  | queued (u : ThreadUpdate) (root : Node) (content : ObjectStore)
      (accepted : d.Accepted c₀ u root) (gains : Gains (d.objects u) c₀.content content) :
      Verdict d now c₀ (.ok (.queued d.bodyId))
        ({ c₀ with
            content
            records := c₀.records.putMessage (d.message now d.bodyId) }.submit d.recipient)

/-- A message for a client has been opened, and only objects have been added since. -/
structure Brings (d : Delivery) (c₀ : Cafe) (u : ThreadUpdate)
    (objects : List (ContentId × Bytes)) (c : Cafe) : Prop where
  registered : c₀.ReadsClient d.recipient
  update : d.update = .ok u
  decodes : ∃ node, Node.ofBytes u.node = .ok node
  others : c = { c₀ with content := c.content }
  gains : Gains objects c₀.content c.content
  rest : c.content.AtRest

/-- What is known in each stage of a delivery that began with `c₀`. -/
def Course (d : Delivery) (now : Instant) (c₀ : Cafe) (stage : Stage) (c : Cafe) : Prop :=
  match stage with
  | .lookUp => c = c₀
  | .pinNode u => c₀.ReadsClient d.recipient ∧ d.update = .ok u ∧ c = c₀
  | .readNode u id => id = .of .node u.node ∧ d.Brings c₀ u [(.of .node u.node, u.node)] c
  | .pinBlock u root => d.Brings c₀ u [(.of .node u.node, u.node)] c ∧
      c.content.nodeAt? (.of .node u.node) = some root
  | .walk w => ∃ u root, d.Brings c₀ u (carried u) c ∧
      c.content.nodeAt? (.of .node u.node) = some root ∧
      w.Covers c.content root ∧ w.Seeks c.content root
  | .pinBody => ∃ u root, d.Brings c₀ u (carried u) c ∧
      c.content.nodeAt? (.of .node u.node) = some root ∧
      ∀ id, Reaches c.content root id → c.content.disk.blocks.get? id ≠ none
  | .record id => id = d.bodyId ∧ ∃ u root, d.Accepted c₀ u root ∧ d.Brings c₀ u (d.objects u) c
  | .announce id => id = d.bodyId ∧ ∃ u root content, d.Accepted c₀ u root ∧
      Gains (d.objects u) c₀.content content ∧
      c = { c₀ with content, records := c₀.records.putMessage (d.message now d.bodyId) }
  | .finished r => Verdict d now c₀ r c

/-! ### What is known after each stage -/

/-- What speaks against the update that a message carries speaks against the message. -/
theorem refused_of_unfit (registered : c₀.ReadsClient d.recipient)
    (update : d.update = .ok u) (unfit : ∀ root, ¬d.Accepted c₀ u root) (e : ObjectError) :
    Course d now c₀ (.refused (Cafe.ofContent e)) c := by
  refine .refused e.message registered fun u' root accepted => ?_
  have same := accepted.update
  rw [update] at same
  cases same
  exact unfit root accepted

theorem Brings.more {objects : List (ContentId × Bytes)} {o : ContentId × Bytes}
    {content : ObjectStore} (h : d.Brings c₀ u objects c) (gains : Gains [o] c.content content)
    (rest : content.AtRest) : d.Brings c₀ u (objects ++ [o]) { c with content } where
  registered := h.registered
  update := h.update
  decodes := h.decodes
  others := by rw [h.others]
  gains := h.gains.append gains
  rest := rest

theorem course_lookUp (d : Delivery) (now : Instant) (c₀ : Cafe) :
    Course d now c₀ (d.step now .lookUp c₀).1 (d.step now .lookUp c₀).2 := by
  simp only [step]
  cases looked : c₀.client? d.recipient with
  | error e => exact .unread e looked
  | ok found =>
    cases found with
    | none => exact .dropped looked
    | some client =>
      dsimp only
      cases update : d.update with
      | error fault =>
        refine .refused fault.message ⟨client, looked⟩ fun u root accepted => ?_
        rw [accepted.update] at update
        cases update
      | ok u => exact ⟨⟨client, looked⟩, update, rfl⟩

theorem course_pinNode (rest : c₀.content.AtRest) (now : Instant)
    (registered : c₀.ReadsClient d.recipient)
    (update : d.update = .ok u) :
    Course d now c₀ (d.step now (.pinNode u) c₀).1 (d.step now (.pinNode u) c₀).2 := by
  have runs : Runs (pinAsNode u.node) c₀.content _ := runs_pin rest .node u.node
  rcases after_cases runs (.readNode u) with
    ⟨id, content, ⟨rest', h⟩, ran⟩ | ⟨e, content, ⟨-, h⟩, ran⟩
  · rw [step, ran]
    rcases h with ⟨takes, stored, gains⟩ | ⟨-, ⟨e, failed⟩, -⟩
    · cases stored
      exact ⟨rfl, registered, update, takes.decodes rfl, rfl, gains, rest'⟩
    · cases failed
  · rw [step, ran]
    rcases h with ⟨-, stored, -⟩ | ⟨not, -, -⟩
    · cases stored
    · refine refused_of_unfit registered update (fun root accepted => ?_) e
      have shorter := length_node_lt update
      have fits := accepted.fits
      exact not ⟨by omega, fun _ => accepted.decodes⟩

theorem course_readNode (now : Instant) (h : d.Brings c₀ u [(.of .node u.node, u.node)] c)
    (began : c₀.content.AtRest) :
    Course d now c₀ (d.step now (.readNode u (.of .node u.node)) c).1
      (d.step now (.readNode u (.of .node u.node)) c).2 := by
  obtain ⟨root, found⟩ := h.rest.nodeAt?_of_present rfl (h.gains.present began)
  have ran : d.step now (.readNode u (.of .node u.node)) c = (.pinBlock u root, c) := by
    simp only [step, after, Cafe.withContent, h.rest.readNode_eq found]
  rw [ran]
  exact ⟨h, found⟩

theorem course_pinBlock (now : Instant) (h : d.Brings c₀ u [(.of .node u.node, u.node)] c)
    (found : c.content.nodeAt? (.of .node u.node) = some root) (began : c₀.content.AtRest) :
    Course d now c₀ (d.step now (.pinBlock u root) c).1 (d.step now (.pinBlock u root) c).2 := by
  have there := h.gains.present began
  simp only [step]
  cases block : u.block with
  | none =>
    have carries : carried u = [(.of .node u.node, u.node)] := by rw [carried, block]; rfl
    refine ⟨u, root, carries ▸ h, found, Walk.covers_ofNode root fun id mem => ?_,
      Walk.seeks_ofNode root none _⟩
    cases mem
  | some b =>
    have carries : carried u = [(.of .node u.node, u.node)] ++ [(.of .raw b, b)] := by
      rw [carried, block]
      rfl
    have runs : Runs (pinAsBytes b) c.content _ := runs_pin h.rest .raw b
    dsimp only
    rcases after_cases runs (fun id => .walk (.ofNode root (some id))) with
      ⟨id, content, ⟨rest', pinned⟩, ran⟩ | ⟨e, content, ⟨-, pinned⟩, ran⟩
    · rw [ran]
      rcases pinned with ⟨-, stored, gains⟩ | ⟨-, ⟨e, failed⟩, -⟩
      · cases stored
        refine ⟨u, root, carries ▸ h.more gains rest', ?_, Walk.covers_ofNode root fun id mem => ?_,
          Walk.seeks_ofNode root _ _⟩
        · exact ((gains.grows h.rest).nodeAt? there).trans found
        · cases mem
          exact ⟨rfl, gains.present h.rest⟩
      · cases failed
    · rw [ran]
      rcases pinned with ⟨-, stored, -⟩ | ⟨not, -, -⟩
      · cases stored
      · refine refused_of_unfit h.registered h.update (fun root accepted => ?_) e
        have shorter := length_block_lt h.update block
        have fits := accepted.fits
        rw [← h.gains.limit] at fits
        exact not ⟨by omega, fun node => by cases node⟩

/-! Once the node and the block have been added, the store has the files of `stocked`. -/

theorem Brings.stored_iff (h : d.Brings c₀ u (carried u) c) {id : ContentId} :
    (stocked c₀ u).disk.blocks.get? id ≠ none ↔ c.content.disk.blocks.get? id ≠ none := by
  rw [h.gains.disk]
  rfl

theorem Brings.nodeAt?_stocked (h : d.Brings c₀ u (carried u) c) (id : ContentId) :
    (stocked c₀ u).nodeAt? id = c.content.nodeAt? id := by
  rw [nodeAt?, nodeAt?, h.gains.disk]
  rfl

theorem Brings.reaches_iff (h : d.Brings c₀ u (carried u) c) {id : ContentId} :
    Reaches (stocked c₀ u) root id ↔ Reaches c.content root id := by
  have same : c.content.disk.blocks = (stocked c₀ u).disk.blocks :=
    congrArg Disk.blocks h.gains.disk
  exact ⟨fun reached => reached.same same, fun reached => reached.same same.symm⟩

theorem course_walk (now : Instant) {w : Walk} (h : d.Brings c₀ u (carried u) c)
    (found : c.content.nodeAt? (.of .node u.node) = some root) (covers : w.Covers c.content root)
    (seeks : w.Seeks c.content root) :
    Course d now c₀ (d.step now (.walk w) c).1 (d.step now (.walk w) c).2 := by
  simp only [step]
  split
  · next ended =>
    exact ⟨u, root, h, found, fun id reached => Walk.stored_of_isOver covers ended reached⟩
  · next more =>
    rcases after_cases (Walk.runs_seeking h.rest covers seeks more) .walk with
      ⟨w', content, ⟨same, goes, -⟩, ran⟩ | ⟨e, content, ⟨same, -, fails⟩, ran⟩
    · rw [ran, same]
      exact ⟨u, root, h, found, goes w' rfl⟩
    · rw [ran]
      obtain ⟨id, reached, missing⟩ := fails e rfl
      refine refused_of_unfit h.registered h.update (fun root' accepted => ?_) e
      -- both stand under the id of the update's node
      have same : root' = root := by
        have found' := accepted.found
        rw [h.nodeAt?_stocked, found] at found'
        exact (Option.some.inj found').symm
      subst same
      exact h.stored_iff.1 (accepted.complete id (h.reaches_iff.2 reached)) missing

theorem course_pinBody (now : Instant) (h : d.Brings c₀ u (carried u) c)
    (found : c.content.nodeAt? (.of .node u.node) = some root)
    (closed : ∀ id, Reaches c.content root id → c.content.disk.blocks.get? id ≠ none) :
    Course d now c₀ (d.step now .pinBody c).1 (d.step now .pinBody c).2 := by
  have runs : Runs (pinAsBytes d.body) c.content _ := runs_pin h.rest .raw d.body
  rcases after_cases runs .record with
    ⟨id, content, ⟨rest', pinned⟩, ran⟩ | ⟨e, content, ⟨-, pinned⟩, ran⟩
  · rw [step, ran]
    rcases pinned with ⟨takes, stored, gains⟩ | ⟨-, ⟨e, failed⟩, -⟩
    · cases stored
      refine ⟨rfl, u, root, ⟨h.registered, update_eq_ok_iff.1 h.update, h.decodes, ?_, ?_, ?_⟩,
        h.more gains rest'⟩
      · exact (h.nodeAt?_stocked _).trans found
      · exact fun id reached => h.stored_iff.2 (closed id (h.reaches_iff.1 reached))
      · exact h.gains.limit ▸ takes.fits
    · cases failed
  · rw [step, ran]
    rcases pinned with ⟨-, stored, -⟩ | ⟨not, -, -⟩
    · cases stored
    · refine refused_of_unfit h.registered h.update (fun root accepted => ?_) e
      exact not ⟨h.gains.limit ▸ accepted.fits, fun node => by cases node⟩

theorem course_record (usable : c₀.mailboxPoisoned = false) (now : Instant)
    (accepted : d.Accepted c₀ u root) (h : d.Brings c₀ u (d.objects u) c) :
    Course d now c₀ (d.step now (.record d.bodyId) c).1 (d.step now (.record d.bodyId) c).2 := by
  have put : c.putMessage (d.message now d.bodyId) =
      .ok { c₀ with
        content := c.content
        records := c₀.records.putMessage (d.message now d.bodyId) } := by
    rw [h.others]
    simp only [Cafe.putMessage, Cafe.checkMailbox, usable]
    rfl
  simp only [step, put]
  exact ⟨rfl, u, root, c.content, accepted, h.gains, rfl⟩

theorem course_step (began : c₀.content.AtRest) (usable : c₀.mailboxPoisoned = false)
    (now : Instant) (stage : Stage) (c : Cafe) (h : Course d now c₀ stage c) :
    Course d now c₀ (d.step now stage c).1 (d.step now stage c).2 := by
  cases stage with
  | lookUp =>
    have same : c = c₀ := h
    rw [same]
    exact course_lookUp d now c₀
  | pinNode u =>
    obtain ⟨registered, update, rfl⟩ := h
    exact course_pinNode began now registered update
  | readNode u id =>
    obtain ⟨rfl, h⟩ := h
    exact course_readNode now h began
  | pinBlock u root => exact course_pinBlock now h.1 h.2 began
  | walk w =>
    obtain ⟨u, root, h, found, covers, seeks⟩ := h
    exact course_walk now h found covers seeks
  | pinBody =>
    obtain ⟨u, root, h, found, closed⟩ := h
    exact course_pinBody now h found closed
  | record id =>
    obtain ⟨rfl, u, root, accepted, h⟩ := h
    exact course_record usable now accepted h
  | announce id =>
    obtain ⟨rfl, u, root, content, accepted, gains, rfl⟩ := h
    exact .queued u root content accepted gains
  | finished r => exact h

theorem verdict_deliver (began : c.content.AtRest) (usable : c.mailboxPoisoned = false)
    (now : Instant) (d : Delivery) : Verdict d now c (c.deliver now d).1 (c.deliver now d).2 :=
  have start : Course d now c .lookUp c := rfl
  run_invariant d now (course_step began usable now) start

/-! ### What the verdict says -/

/-- The block of an update stands under another id than its node. -/
theorem get?_stocked (began : c.content.AtRest) (decodes : ∃ node, Node.ofBytes u.node = .ok node) :
    (stocked c u).disk.blocks.get? (.of .node u.node) =
      (c.content.stock (.of .node u.node, u.node)).disk.blocks.get? (.of .node u.node) := by
  unfold stocked carried
  cases u.block with
  | none => rfl
  | some b =>
    have between := began.stock .node u.node fun _ => decodes
    refine (get?_stock between.tidy.blocks (.of .raw b, b) _).trans (if_neg ?_)
    rintro ⟨same, -⟩
    cases same

/-- The node that is read back is the one that came along, unless another stored object has its
hash. -/
theorem Accepted.root_eq (h : d.Accepted c u root) (began : c.content.AtRest)
    (free : CollisionFree (u.node :: c.content.contents)) : Node.ofBytes u.node = .ok root := by
  obtain ⟨-, bytes, file, decoded⟩ := nodeAt?_eq_some_iff.1 h.found
  rw [get?_stocked began h.decodes, get?_stock began.tidy.blocks] at file
  split at file
  · cases file
    exact decoded
  · obtain ⟨S, sound⟩ := began.sound
    obtain ⟨bytes', same, fit⟩ := sound.blocks _ _ file
    cases same
    have digest : Digest.of u.node = Digest.of bytes := congrArg ContentId.digest fit.named
    rwa [free _ List.mem_cons_self _ (List.mem_cons_of_mem _ (mem_contents file)) digest]

variable {r : Except RequestError Outcome} {c' : Cafe}

theorem Verdict.unknown_of_dropped (h : Verdict d now c (.ok .dropped) c') :
    c.client? d.recipient = .ok none := by
  cases h with
  | dropped unknown => exact unknown

theorem Verdict.accepted_of_queued {id : ContentId} (h : Verdict d now c (.ok (.queued id)) c') :
    id = d.bodyId ∧ ∃ u root, d.Accepted c u root := by
  cases h with
  | queued u root content accepted gains => exact ⟨rfl, u, root, accepted⟩

theorem Verdict.of_accepted (h : Verdict d now c r c') (accepted : d.Accepted c u root) :
    r = .ok (.queued d.bodyId) ∧ ∃ content, Gains (d.objects u) c.content content ∧
      c' = { c with
        content
        records := c.records.putMessage (d.message now d.bodyId) }.submit d.recipient := by
  cases h with
  | unread e failed => exact absurd failed (accepted.registered.ne_error e)
  | dropped unknown => exact absurd unknown accepted.registered.ne_none
  | refused reason registered unfit => exact absurd accepted (unfit u root)
  | queued u' root' content accepted' gains =>
    have same := accepted'.update
    rw [accepted.update] at same
    cases same
    exact ⟨rfl, content, gains, rfl⟩

theorem Verdict.of_unfit (h : Verdict d now c r c')
    (registered : c.ReadsClient d.recipient)
    (unfit : ∀ u root, ¬d.Accepted c u root) : ∃ reason, r = .error (.malformedInput reason) := by
  cases h with
  | unread e failed => exact absurd failed (registered.ne_error e)
  | dropped unknown => exact absurd unknown registered.ne_none
  | refused reason => exact ⟨reason, rfl⟩
  | queued u root content accepted gains => exact absurd accepted (unfit u root)

end Delivery

/-! ### What stands in the registry -/

/-- The date in the record of a client can be read. -/
def ClientRow.IsReadable (row : ClientRow) : Prop := Instant.readStored? row.created ≠ none

theorem ClientRow.isReadable_iff {row : ClientRow} {t : Instant}
    (written : row.created = t.storedText) : row.IsReadable ↔ t.HasShortYear := by
  rw [IsReadable, written]
  by_cases short : t.HasShortYear
  · simp [Instant.readStored?_of_short short, short]
  · simp [Instant.readStored?_of_long short, short]

namespace Cafe

variable {c : Cafe} {id : String} {row : ClientRow}

theorem client?_eq_none_iff (healthy : c.registryPoisoned = false) :
    c.client? id = .ok none ↔ c.records.clients.get? id = none := by
  rw [client?_of_healthy healthy, Records.client?]
  cases c.records.clients.get? id with
  | none => simp
  | some row =>
    cases read : Records.readDate 2 row.created with
    | error e => simp [read, bind, Except.bind]
    | ok created => simp [read, bind, Except.bind, pure, Except.pure]

theorem client?_of_unreadable (healthy : c.registryPoisoned = false)
    (there : c.records.clients.get? id = some row) (unreadable : ¬row.IsReadable) :
    c.client? id = .error (.unreadableDate 2) := by
  have unread : Instant.readStored? row.created = none := Classical.not_not.1 unreadable
  rw [client?_of_healthy healthy, Records.client?, there]
  simp only [Records.readDate, unread]
  rfl

theorem readsClient_of_readable (healthy : c.registryPoisoned = false)
    (there : c.records.clients.get? id = some row) (readable : row.IsReadable) :
    c.ReadsClient id := by
  obtain ⟨created, read⟩ := Option.ne_none_iff_exists'.1 readable
  refine ⟨⟨id, row.address, created⟩, ?_⟩
  rw [client?_of_healthy healthy, Records.client?, there]
  simp only [Records.readDate, read]
  rfl

/-- Where nothing fails, a delivery is decided by the cafe it begins in, which may be any whose
content requests have left behind. What is meant for someone who is not registered is dropped and
changes nothing. If the date in the recipient's record is none of the years 0 to 9999, the record
cannot be read: the delivery fails and changes nothing, whatever the message. Any other message for
a client is queued exactly if it carries an update, fits, and all that the update's node leads to is
there once the node and the block are added; else it is malformed. A queued message adds the node,
the block and itself with their pins, its entry in the inbox, and one submission of the client, and
changes nothing else. -/
theorem delivery_decided (config : Config) (events : List Traffic.Event)
    (reached : c.content = ((Traffic.start config).run events).cafe.content)
    (still : c.content.disk.faults = []) (usable : c.mailboxPoisoned = false)
    (now : Instant) (d : Delivery) :
    (c.registryPoisoned = true → c.deliver now d = (.error (.ofRecords .poisoned), c)) ∧
    (c.registryPoisoned = false →
      ((c.deliver now d).1 = .ok .dropped ↔ c.records.clients.get? d.recipient = none) ∧
      (c.records.clients.get? d.recipient = none → (c.deliver now d).2 = c) ∧
      ∀ row, c.records.clients.get? d.recipient = some row →
        (∀ t : Instant, row.created = t.storedText → (row.IsReadable ↔ t.HasShortYear)) ∧
        (¬row.IsReadable →
          c.deliver now d = (.error (.ofRecords (.unreadableDate 2)), c)) ∧
        (row.IsReadable → (∀ u root, ¬d.Accepted c u root) →
          ∃ reason, (c.deliver now d).1 = .error (.malformedInput reason))) ∧
    (∀ id, (c.deliver now d).1 = .ok (.queued id) ↔
      id = d.bodyId ∧ ∃ u root, d.Accepted c u root) ∧
    ∀ u root, d.Accepted c u root →
      (∃ content, Gains (d.objects u) c.content content ∧
        (c.deliver now d).2 =
          { c with
            content
            records := c.records.putMessage (d.message now d.bodyId) }.submit d.recipient) ∧
      (CollisionFree (u.node :: c.content.contents) → Node.ofBytes u.node = .ok root) := by
  have began : c.content.AtRest := by
    rw [reached] at still ⊢
    exact Traffic.atRest_run config events still
  have verdict := Delivery.verdict_deliver began usable now d
  refine ⟨?poisoned, ?healthy, ?queued, ?effect⟩
  case poisoned =>
    intro poisoned
    exact Delivery.deliver_unread (client?_of_poisoned poisoned) now
  case healthy =>
    intro healthy
    refine ⟨⟨fun dropped => ?_, fun unknown => ?_⟩, fun unknown => ?_, fun row there =>
      ⟨fun t written => ClientRow.isReadable_iff written, fun unreadable => ?_,
        fun readable => ?_⟩⟩
    · rw [dropped] at verdict
      exact (client?_eq_none_iff healthy).1 verdict.unknown_of_dropped
    · rw [Delivery.deliver_dropped ((client?_eq_none_iff healthy).2 unknown)]
    · rw [Delivery.deliver_dropped ((client?_eq_none_iff healthy).2 unknown)]
    · exact Delivery.deliver_unread (client?_of_unreadable healthy there unreadable) now
    · exact verdict.of_unfit (readsClient_of_readable healthy there readable)
  case queued =>
    intro id
    constructor
    · intro queued
      rw [queued] at verdict
      exact verdict.accepted_of_queued
    · rintro ⟨rfl, u, root, accepted⟩
      exact (verdict.of_accepted accepted).1
  case effect =>
    intro u root accepted
    exact ⟨(verdict.of_accepted accepted).2, accepted.root_eq began⟩

end Cafe

/-! ### A message whose node links to an object that is there -/

namespace Delivery

theorem result_of_outcome {stage : Stage} {o : Outcome}
    (h : stage.result?.bind Except.toOption = some o) : stage.result? = some (.ok o) := by
  obtain ⟨r, result, ended⟩ := Option.bind_eq_some_iff.1 h
  rw [result, toOption_eq_some_iff.1 ended]

/-- A client registers, and an object is stored. -/
def awaiting : List Traffic.Event :=
  [.arrive (.register ⟨"bob", "", .epoch⟩), .arrive (.keep Traffic.leaf)] ++
  [0, 1, 1].map fun place => .advance place .epoch

def waiting : Cafe := ((Traffic.start {}).run awaiting).cafe

theorem linked_queued : waiting.content.disk.faults = [] ∧ waiting.mailboxPoisoned = false ∧
    (waiting.deliver .epoch Traffic.linked).1 = .ok (.queued Traffic.linked.bodyId) ∧
    ∃ u root, Traffic.linked.Accepted waiting u root ∧
      ∃ content, Gains (Traffic.linked.objects u) waiting.content content ∧
        (waiting.deliver .epoch Traffic.linked).2 =
          { waiting with
            content
            records := waiting.records.putMessage
              (Traffic.linked.message .epoch Traffic.linked.bodyId) }.submit "bob" := by
  have still : waiting.content.disk.faults = [] := by decide +kernel
  have usable : waiting.mailboxPoisoned = false := by decide +kernel
  have ends : (Traffic.linked.steps .epoch 10 (.lookUp, waiting)).1.result?.bind Except.toOption =
      some (.queued Traffic.linked.bodyId) := by decide +kernel
  have queued := deliver_of_result (result_of_outcome ends)
  obtain ⟨-, -, accepted_iff, effect⟩ :=
    Cafe.delivery_decided {} awaiting (c := waiting) rfl still usable .epoch Traffic.linked
  obtain ⟨-, u, root, accepted⟩ := (accepted_iff _).1 queued
  exact ⟨still, usable, queued, u, root, accepted, (effect u root accepted).1⟩

/-! ### A client whose record cannot be read -/

/-- The start of the year 10000. -/
def farOff : Instant := ⟨253402300800, 0, by decide, by decide, Instant.epoch.nanos_lt⟩

/-- Bob registers, by a clock that is far ahead. -/
def aheadOfTime : List Traffic.Event :=
  [.arrive (.register ⟨"bob", "", farOff⟩), .advance 0 .epoch]

/-- A delivery may be neither dropped nor queued nor malformed: the recipient is registered, and its
record cannot be read. -/
theorem unreadable_recipient_fails : ¬ ∀ (config : Config) (events : List Traffic.Event)
    (now : Instant) (d : Delivery),
    ((Traffic.start config).run events).cafe.content.disk.faults = [] →
    ((Traffic.start config).run events).cafe.registryPoisoned = false →
    ((Traffic.start config).run events).cafe.mailboxPoisoned = false →
    (((Traffic.start config).run events).cafe.deliver now d).1 = .ok .dropped ∨
    (∃ id, (((Traffic.start config).run events).cafe.deliver now d).1 = .ok (.queued id)) ∨
    ∃ reason,
      (((Traffic.start config).run events).cafe.deliver now d).1 =
        .error (.malformedInput reason) := by
  intro decided
  have row : ((Traffic.start {}).run aheadOfTime).cafe.records.clients.get? "bob" =
      some ⟨"", farOff.storedText⟩ := by decide +kernel
  have unreadable : ¬ClientRow.IsReadable ⟨"", farOff.storedText⟩ := by
    rw [ClientRow.isReadable_iff (t := farOff) rfl]
    exact fun short => absurd short.2 (by decide +kernel)
  have healthy : ((Traffic.start {}).run aheadOfTime).cafe.registryPoisoned = false := by
    decide +kernel
  have failed :=
    deliver_unread (d := toBob) (Cafe.client?_of_unreadable healthy row unreadable) .epoch
  rcases decided {} aheadOfTime .epoch toBob (by decide +kernel) healthy (by decide +kernel) with
    dropped | ⟨id, queued⟩ | ⟨reason, malformed⟩
  · rw [failed] at dropped
    cases dropped
  · rw [failed] at queued
    cases queued
  · rw [failed] at malformed
    cases malformed

end Delivery

end Relay
