import Relay.Cafe.Delivery
import Relay.Proofs.Content.Reach
import Relay.Proofs.Wire.Canonical

/-!
# Rejected deliveries

A delivery that ends in an error leaves the registry, the snapshots, the inboxes and the
notifications as they were, whatever stands in the content store and whichever file steps fail.
What it may leave behind in the content store is said by `Cafe.rejected_delivery`.
-/

namespace Relay

namespace Cafe

variable {c : Cafe} {id : String}

theorem client?_of_healthy (healthy : c.registryPoisoned = false) :
    c.client? id = c.records.client? id := by
  simp only [client?, checkRegistry, healthy]
  rfl

theorem client?_of_poisoned (poisoned : c.registryPoisoned = true) :
    c.client? id = .error .poisoned := by
  simp only [client?, checkRegistry, poisoned]
  rfl

end Cafe

namespace Delivery

variable {d : Delivery} {now : Instant} {c c₀ : Cafe} {u : ThreadUpdate}

/-! ### What a delivery stores -/

def bodyId (d : Delivery) : ContentId := .of .raw d.body

/-- The objects that a message brings, under their ids: the node, the block, and itself. -/
def objects (d : Delivery) (u : ThreadUpdate) : List (ContentId × Bytes) :=
  (.of .node u.node, u.node) :: u.block.toList.map (fun b => (.of .raw b, b)) ++
    [(d.bodyId, d.body)]

/-- How the objects that an update brings are pinned. -/
def updatePins (u : ThreadUpdate) : List (ContentId × PinMode) :=
  (.of .node u.node, .recursive) :: u.block.toList.map fun b => (.of .raw b, .direct)

/-! ### Runs -/

/-- What every step keeps holds when a delivery has ended. -/
theorem run_invariant (d : Delivery) (now : Instant) {inv : Stage → Cafe → Prop}
    (keeps : ∀ stage c, inv stage c → inv (d.step now stage c).1 (d.step now stage c).2)
    {stage : Stage} {c : Cafe} (h : inv stage c) :
    inv (.finished (d.run now stage c).1) (d.run now stage c).2 := by
  fun_induction d.run now stage c with
  | case1 stage c r ended =>
    cases stage with
    | finished r' => cases ended; exact h
    | _ => cases ended
  | case2 stage c more ih => exact ih (keeps stage c h)

def steps (d : Delivery) (now : Instant) : Nat → Stage × Cafe → Stage × Cafe
  | 0, p => p
  | n + 1, p => d.steps now n (d.step now p.1 p.2)

theorem run_steps (d : Delivery) (now : Instant) (n : Nat) (stage : Stage) (c : Cafe) :
    d.run now (d.steps now n (stage, c)).1 (d.steps now n (stage, c)).2 = d.run now stage c := by
  induction n generalizing stage c with
  | zero => rfl
  | succ n ih =>
    rw [steps, ih]
    exact run_step d now stage c

theorem deliver_of_result {n : Nat} {r : Except RequestError Outcome}
    (ended : (d.steps now n (.lookUp, c)).1.result? = some r) : (c.deliver now d).1 = r := by
  rw [Cafe.deliver, ← run_steps d now n]
  cases reached : (d.steps now n (.lookUp, c)).1 with
  | finished r' =>
    rw [reached] at ended
    cases ended
    rw [run_finished]
  | _ =>
    rw [reached] at ended
    cases ended

theorem deliver_unread {e : RecordError} (failed : c.client? d.recipient = .error e)
    (now : Instant) : c.deliver now d = (.error (.ofRecords e), c) := by
  have refused : d.step now .lookUp c = (.finished (.error (.ofRecords e)), c) := by
    simp only [step, failed, Stage.refused]
  rw [Cafe.deliver, ← run_step, refused, run_finished]

theorem deliver_dropped (unknown : c.client? d.recipient = .ok none) (now : Instant) :
    c.deliver now d = (.ok .dropped, c) := by
  have dropped : d.step now .lookUp c = (.finished (.ok .dropped), c) := by
    simp only [step, unknown]
  rw [Cafe.deliver, ← run_step, dropped, run_finished]

/-- A stage that does one operation on the content store ends the delivery or goes on. -/
theorem after_cases {α : Type} {op : ObjectStore.Op α} {c : Cafe}
    {post : Except ObjectError α → ObjectStore → Prop} (h : Runs op c.content post)
    (next : α → Stage) :
    (∃ a content, post (.ok a) content ∧ after op next c = (next a, { c with content })) ∨
    ∃ e content, post (.error e) content ∧
      after op next c = (.refused (Cafe.ofContent e), { c with content }) := by
  unfold after Cafe.withContent
  cases ran : op c.content with
  | mk r content =>
    have found := h.of_eq ran
    cases r with
    | ok a => exact .inl ⟨a, content, found, rfl⟩
    | error e => exact .inr ⟨e, content, found, rfl⟩

/-! ### What a delivery has done so far -/

/-- Only the content store has changed, and only by objects of the message and the given pins. -/
structure Left (d : Delivery) (u : ThreadUpdate) (pins : List (ContentId × PinMode))
    (c₀ c : Cafe) : Prop where
  update : d.update = .ok u
  decodes : ∃ node, Node.ofBytes u.node = .ok node
  rest : c = { c₀ with content := c.content }
  adds : ObjectStore.Adds (d.objects u) pins c₀.content c.content

inductive RefusedWith (d : Delivery) (now : Instant) (c₀ : Cafe) :
    RequestError → Cafe → Prop
  | unchanged (e : RequestError) : RefusedWith d now c₀ e c₀
  | malformed {c : Cafe} (u : ThreadUpdate) (reason : String)
      (left : Left d u (updatePins u) c₀ c) : RefusedWith d now c₀ (.malformedInput reason) c
  | unrecorded {c : Cafe} (u : ThreadUpdate) (r : RecordError)
      (left : Left d u (updatePins u ++ [(d.bodyId, .direct)]) c₀ c)
      (failed : c.putMessage (d.message now d.bodyId) = .error r) :
      RefusedWith d now c₀ (.ofRecords r) c

/-- What holds in each stage of a delivery that began with `c₀`. -/
def Trail (d : Delivery) (now : Instant) (c₀ : Cafe) (stage : Stage) (c : Cafe) : Prop :=
  match stage with
  | .lookUp => c = c₀
  | .pinNode u => d.update = .ok u ∧ c = c₀
  | .readNode u _ | .pinBlock u _ => Left d u (updatePins u) c₀ c
  | .walk _ | .pinBody => ∃ u, Left d u (updatePins u) c₀ c
  | .record id => id = d.bodyId ∧ ∃ u, Left d u (updatePins u ++ [(d.bodyId, .direct)]) c₀ c
  | .announce _ | .finished (.ok _) => True
  | .finished (.error e) => RefusedWith d now c₀ e c

theorem Left.more {pins pins' : List (ContentId × PinMode)} {content : ObjectStore}
    {bs : List (ContentId × Bytes)} {ps : List (ContentId × PinMode)}
    (h : Left d u pins c₀ c) (adds : ObjectStore.Adds bs ps c.content content)
    (hb : bs ⊆ d.objects u) (hp : pins ⊆ pins') (hp' : ps ⊆ pins') :
    Left d u pins' c₀ { c with content } where
  update := h.update
  decodes := h.decodes
  rest := by rw [h.rest]
  adds := (h.adds.mono (List.Subset.refl _) hp).trans (adds.mono hb hp')

theorem Left.quiet {pins : List (ContentId × PinMode)} {content : ObjectStore}
    (h : Left d u pins c₀ c) (quiet : ObjectStore.Quiet c.content content) :
    Left d u pins c₀ { c with content } :=
  h.more quiet.adds (List.nil_subset _) (List.Subset.refl _) (List.nil_subset _)

theorem trail_lookUp (d : Delivery) (now : Instant) (c : Cafe) :
    Trail d now c (d.step now .lookUp c).1 (d.step now .lookUp c).2 := by
  simp only [step]
  split
  · exact .unchanged _
  · trivial
  · split
    · exact .unchanged _
    · next update => exact ⟨update, rfl⟩

theorem trail_pinNode (d : Delivery) (now : Instant) (c : Cafe) (update : d.update = .ok u) :
    Trail d now c (d.step now (.pinNode u) c).1 (d.step now (.pinNode u) c).2 := by
  have start : (∃ node, Node.ofBytes u.node = .ok node) → Left d u (updatePins u) c c :=
    fun decodes => ⟨update, decodes, rfl, .refl _ _ _⟩
  have objects : [(ContentId.of .node u.node, u.node)] ⊆ d.objects u := by
    simp [Delivery.objects]
  have pins : [(ContentId.of .node u.node, PinMode.recursive)] ⊆ updatePins u := by
    simp [updatePins]
  rcases after_cases (ObjectStore.runs_pinAsNode u.node c.content) (.readNode u) with
    ⟨id, content, ⟨undecodable, h⟩, ran⟩ | ⟨e, content, ⟨undecodable, h⟩, ran⟩
  · rw [step, ran]
    rcases h with ⟨⟨e, failed⟩, -⟩ | ⟨-, pinned, -⟩
    · cases failed
    have decodes : ∃ node, Node.ofBytes u.node = .ok node := by
      refine Classical.byContradiction fun none => ?_
      obtain ⟨⟨e, failed⟩, -⟩ := undecodable fun node h => none ⟨node, h⟩
      cases failed
    exact (start decodes).more pinned.adds objects (List.Subset.refl _) pins
  · rw [step, ran]
    by_cases decodes : ∃ node, Node.ofBytes u.node = .ok node
    · rcases h with ⟨-, refused⟩ | ⟨ok, -⟩
      · exact .malformed u _ ((start decodes).more refused.adds objects (List.Subset.refl _)
          (List.nil_subset _))
      · cases ok
    · obtain ⟨-, rfl⟩ := undecodable fun node h => decodes ⟨node, h⟩
      exact .unchanged _

theorem trail_readNode (d : Delivery) (now : Instant) {id : ContentId}
    (h : Left d u (updatePins u) c₀ c) :
    Trail d now c₀ (d.step now (.readNode u id) c).1 (d.step now (.readNode u id) c).2 := by
  rcases after_cases (ObjectStore.runs_readNode id c.content) (.pinBlock u) with
    ⟨node, content, ⟨quiet, -⟩, ran⟩ | ⟨e, content, ⟨quiet, -⟩, ran⟩
  · rw [step, ran]
    exact h.quiet quiet
  · rw [step, ran]
    exact .malformed u _ (h.quiet quiet)

theorem trail_pinBlock (d : Delivery) (now : Instant) {node : Node}
    (h : Left d u (updatePins u) c₀ c) :
    Trail d now c₀ (d.step now (.pinBlock u node) c).1 (d.step now (.pinBlock u node) c).2 := by
  simp only [step]
  cases block : u.block with
  | none => exact ⟨u, h⟩
  | some b =>
    have objects : [(ContentId.of .raw b, b)] ⊆ d.objects u := by
      simp [Delivery.objects, block]
    have pins : [(ContentId.of .raw b, PinMode.direct)] ⊆ updatePins u := by
      simp [updatePins, block]
    dsimp only
    rcases after_cases (ObjectStore.runs_pinAsBytes b c.content)
      (fun id => .walk (.ofNode node (some id))) with ⟨id, content, h', ran⟩ | ⟨e, content, h', ran⟩
    · rw [ran]
      rcases h' with ⟨⟨e, failed⟩, -⟩ | ⟨-, pinned, -⟩
      · cases failed
      · exact ⟨u, h.more pinned.adds objects (List.Subset.refl _) pins⟩
    · rw [ran]
      rcases h' with ⟨-, refused⟩ | ⟨ok, -⟩
      · exact .malformed u _ (h.more refused.adds objects (List.Subset.refl _) (List.nil_subset _))
      · cases ok

theorem trail_walk (d : Delivery) (now : Instant) {w : Walk}
    (h : Left d u (updatePins u) c₀ c) :
    Trail d now c₀ (d.step now (.walk w) c).1 (d.step now (.walk w) c).2 := by
  simp only [step]
  split
  · exact ⟨u, h⟩
  · rcases after_cases (w.runs_step c.content) .walk with
      ⟨w', content, ⟨quiet, -⟩, ran⟩ | ⟨e, content, ⟨quiet, -⟩, ran⟩
    · rw [ran]
      exact ⟨u, h.quiet quiet⟩
    · rw [ran]
      exact .malformed u _ (h.quiet quiet)

theorem trail_pinBody (d : Delivery) (now : Instant) (h : Left d u (updatePins u) c₀ c) :
    Trail d now c₀ (d.step now .pinBody c).1 (d.step now .pinBody c).2 := by
  have objects : [(d.bodyId, d.body)] ⊆ d.objects u := by
    simp [Delivery.objects]
  rcases after_cases (ObjectStore.runs_pinAsBytes d.body c.content) .record with
    ⟨id, content, h', ran⟩ | ⟨e, content, h', ran⟩
  · rw [step, ran]
    rcases h' with ⟨⟨e, failed⟩, -⟩ | ⟨same, pinned, -⟩
    · cases failed
    · cases same
      exact ⟨rfl, u, h.more pinned.adds objects (List.subset_append_left _ _)
        (List.subset_append_right _ _)⟩
  · rw [step, ran]
    rcases h' with ⟨-, refused⟩ | ⟨ok, -⟩
    · exact .malformed u _ (h.more refused.adds objects (List.Subset.refl _) (List.nil_subset _))
    · cases ok

theorem trail_step (d : Delivery) (now : Instant) (c₀ : Cafe) (stage : Stage) (c : Cafe)
    (h : Trail d now c₀ stage c) :
    Trail d now c₀ (d.step now stage c).1 (d.step now stage c).2 := by
  cases stage with
  | lookUp =>
    have begun : c = c₀ := h
    rw [begun]
    exact trail_lookUp d now c₀
  | pinNode u =>
    obtain ⟨update, rfl⟩ := h
    exact trail_pinNode d now c update
  | readNode u id => exact trail_readNode d now h
  | pinBlock u node => exact trail_pinBlock d now h
  | walk w =>
    obtain ⟨u, h⟩ := h
    exact trail_walk d now h
  | pinBody =>
    obtain ⟨u, h⟩ := h
    exact trail_pinBody d now h
  | record id =>
    obtain ⟨rfl, u, h⟩ := h
    simp only [step]
    split
    · trivial
    · next failed => exact .unrecorded u _ h failed
  | announce id => trivial
  | finished r => exact h

theorem refusedWith_run {e : RequestError} {c' : Cafe}
    (rejected : d.run now .lookUp c = (.error e, c')) : RefusedWith d now c e c' := by
  have begun : Trail d now c .lookUp c := rfl
  have trail := run_invariant d now (trail_step d now c) begun
  rw [rejected] at trail
  exact trail

/-! ### The message's own pin -/

theorem update_eq_ok (update : d.update = .ok u) :
    ∃ e : Envelope, Envelope.ofBytes d.body = .ok e ∧ e.threadUpdate = .ok u ∧
      e.toBytes = d.body ∧ u.toBytes = e.payload := by
  unfold Delivery.update at update
  cases opened : Envelope.ofBytes d.body with
  | error fault =>
    rw [opened] at update
    cases update
  | ok e =>
    rw [opened] at update
    have update : e.threadUpdate = .ok u := update
    have kind : e.kind = .threadUpdate := by
      refine Classical.byContradiction fun other => ?_
      rw [Envelope.threadUpdate, Envelope.openAs_of_ne _ other] at update
      cases update
    refine ⟨e, rfl, update, Envelope.canonical.write_read _ _ opened, ?_⟩
    refine (ThreadUpdate.canonical e.signature).write_read _ _ ?_
    rw [← kind]
    exact update

/-- A block is shorter than the message that brings it. -/
theorem length_block_lt {block : Bytes} (update : d.update = .ok u)
    (carried : u.block = some block) : block.length < d.body.length := by
  obtain ⟨e, -, -, body, payload⟩ := update_eq_ok update
  have inner : block.length ≤ u.toBytes.length := by
    rw [ThreadUpdate.toBytes, carried]
    simp only [Wire.putOption, Wire.putBytes, List.length_append, List.length_cons]
    omega
  rw [← body, Envelope.toBytes, ← payload]
  simp only [Wire.putBytes, Wire.putU32, Wire.putU64, List.length_append, length_littleEndian]
  omega

/-- No block of the message has the hash of the message itself. -/
def Apart (d : Delivery) : Prop := ∀ u, d.update = .ok u → ∀ block ∈ u.block,
  Digest.of block = Digest.of d.body → block = d.body

theorem bodyId_not_mem_updatePins (apart : d.Apart) (update : d.update = .ok u) (mode : PinMode) :
    (d.bodyId, mode) ∉ updatePins u := by
  intro mem
  rw [updatePins, List.mem_cons, List.mem_map] at mem
  rcases mem with node | ⟨block, carried, same⟩
  · cases node
  · rw [Option.mem_toList] at carried
    have digest : Digest.of block = Digest.of d.body :=
      congrArg (fun p : ContentId × PinMode => p.1.digest) same
    have equal := apart u update block carried digest
    have shorter := length_block_lt update carried
    rw [equal] at shorter
    exact Nat.lt_irrefl _ shorter

theorem bodyPin_stays (apart : d.Apart) (h : Left d u (updatePins u) c₀ c) :
    c.content.disk.pins.get? d.bodyId = c₀.content.disk.pins.get? d.bodyId := by
  rcases h.adds.pins.get? d.bodyId with same | ⟨mode, set, _⟩
  · exact same
  · exact absurd set (bodyId_not_mem_updatePins apart h.update mode)

end Delivery

/-- A delivery that ends in an error changes nothing but the content store, and nothing at all if
it brings no update whose node can be read. A malformed input leaves behind no more than the
objects that the message brings, where they were missing, and the pins of its node and its block,
set and not taken away. The message itself is newly pinned only if it could not be put into the
inbox. -/
theorem Cafe.rejected_delivery {d : Delivery} {now : Instant} {c c' : Cafe} {e : RequestError}
    (apart : d.Apart) (rejected : c.deliver now d = (.error e, c')) :
    c' = { c with content := c'.content } ∧
    ((∀ u node, d.update = .ok u → Node.ofBytes u.node ≠ .ok node) → c' = c) ∧
    (∀ reason u, e = .malformedInput reason → d.update = .ok u →
      ObjectStore.Adds (d.objects u) (Delivery.updatePins u) c.content c'.content ∧
      c'.content.disk.pins.get? d.bodyId = c.content.disk.pins.get? d.bodyId) ∧
    (c'.content.disk.pins.get? d.bodyId ≠ c.content.disk.pins.get? d.bodyId →
      ∃ r, c'.putMessage (d.message now d.bodyId) = .error r ∧ e = .ofRecords r) := by
  have unread : ∀ {u pins c'}, Delivery.Left d u pins c c' →
      (∀ u node, d.update = .ok u → Node.ofBytes u.node ≠ .ok node) → c' = c := by
    intro u pins c' left none
    obtain ⟨node, decodes⟩ := left.decodes
    exact absurd decodes (none u node left.update)
  cases Delivery.refusedWith_run rejected with
  | unchanged =>
    exact ⟨rfl, fun _ => rfl, fun _ _ _ _ => ⟨.refl _ _ _, rfl⟩, fun changed => absurd rfl changed⟩
  | malformed u reason left =>
    have stays := Delivery.bodyPin_stays apart left
    refine ⟨left.rest, unread left, fun reason' u' _ update => ⟨?_, stays⟩,
      fun changed => absurd stays changed⟩
    rw [left.update] at update
    cases update
    exact left.adds
  | unrecorded u r left failed =>
    refine ⟨left.rest, unread left, fun reason u' malformed _ => ?_, fun _ => ⟨r, failed, rfl⟩⟩
    cases malformed

/-! ### A delivery that cannot be recorded -/

namespace Delivery

def toBob : Delivery :=
  let node : Node := { data := [1], links := [] }
  let update : ThreadUpdate := { thread := "t", node := node.toBytes, block := some [7] }
  { sender := "alice", recipient := "bob", body := update.wrap.toBytes }

/-- A cafe with one client, whose mailbox cannot be used. -/
def poisoned : Cafe :=
  { Cafe.ofConfig {} with
    records := { clients := Table.put ∅ "bob" ⟨"", Instant.epoch.storedText⟩ }
    mailboxPoisoned := true }

def refusal? : Stage → Option RequestError
  | .finished (.error e) => some e
  | _ => none

theorem result_of_refusal {stage : Stage} {e : RequestError} (h : refusal? stage = some e) :
    stage.result? = some (.error e) := by
  unfold refusal? at h
  split at h
  · cases h
    rfl
  · cases h

theorem toBob_apart : toBob.Apart := by
  intro u update block carried same
  have known : (toBob.update.toOption.bind ThreadUpdate.block) = some [7] := by decide +kernel
  rw [update] at known
  have known : u.block = some [7] := known
  rw [known] at carried
  cases carried
  exact absurd same (by decide +kernel)

theorem poisoned_refuses : ∃ c', poisoned.deliver .epoch toBob =
    (.error (.storageFailure "Store lock poisoned"), c') := by
  have ends : refusal? (toBob.steps .epoch 8 (.lookUp, poisoned)).1 =
      some (.storageFailure "Store lock poisoned") := by decide +kernel
  exact ⟨_, Prod.ext (deliver_of_result (result_of_refusal ends)) rfl⟩

theorem poisoned_keeps_rest : ∃ c', poisoned.deliver .epoch toBob =
      (.error (.storageFailure "Store lock poisoned"), c') ∧
    c' = { poisoned with content := c'.content } := by
  obtain ⟨c', rejected⟩ := poisoned_refuses
  exact ⟨c', rejected, (Cafe.rejected_delivery toBob_apart rejected).1⟩

end Delivery

end Relay
