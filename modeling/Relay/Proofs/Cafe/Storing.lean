import Relay.Proofs.Cafe.Steps

/-!
# What requests do to the content store

A step of a request does one act on the content store or none (`Task.changes_step`). So what holds
of acts holds of requests, however they interleave: the store stays sound (`Traffic.sound_run`),
also where hashes collide. A message that is delivered again, with its objects stored and pinned,
changes no file (`Cafe.sameFiles_deliver`).
-/

namespace Relay

open ObjectStore

namespace ObjectStore

variable {S : List Bytes} {s t u : ObjectStore} {id : ContentId} {bytes : Bytes}

/-! ### Files that stay -/

structure SameFiles (s t : ObjectStore) : Prop where
  blocks : ∀ id, t.disk.blocks.get? id = s.disk.blocks.get? id
  pins : ∀ id, t.disk.pins.get? id = s.disk.pins.get? id

theorem SameFiles.refl (s : ObjectStore) : SameFiles s s := ⟨fun _ => rfl, fun _ => rfl⟩

theorem SameFiles.trans (h : SameFiles s t) (h' : SameFiles t u) : SameFiles s u :=
  ⟨fun id => (h'.blocks id).trans (h.blocks id), fun id => (h'.pins id).trans (h.pins id)⟩

theorem Quiet.sameFiles (h : Quiet s t) : SameFiles s t := by
  constructor
  · intro id
    rw [h.blocks]
  · intro id
    rw [h.pins]

structure Settled (s : ObjectStore) (id : ContentId) : Prop where
  stored : s.disk.blocks.get? id ≠ none
  pinned : s.IsPinned id

theorem Settled.same (h : s.Settled id) (same : SameFiles s t) : t.Settled id := by
  constructor
  · rw [same.blocks]
    exact h.stored
  · rw [IsPinned, same.pins]
    exact h.pinned

/-- Blocks that are there and pins that are set already are no change. -/
theorem Adds.sameFiles {bs : List (ContentId × Bytes)} {ps : List (ContentId × PinMode)}
    (adds : Adds bs ps s t) (stored : ∀ b ∈ bs, s.disk.blocks.get? b.1 ≠ none)
    (pinned : ∀ p ∈ ps, s.disk.pins.get? p.1 = some (.file p.2.file)) : SameFiles s t := by
  constructor
  · intro id
    rcases adds.blocks.get? id with same | ⟨free, bytes, added, -⟩
    · exact same
    · exact absurd free (stored _ added)
  · intro id
    rcases adds.pins.get? id with same | ⟨mode, set, new⟩
    · exact same
    · rw [new, pinned _ set]

theorem sameFiles_pin {codec : Codec} (h : s.Settled (.of codec bytes)) :
    SameFiles s ((Act.pin codec bytes).op s).2 := by
  have stored : ∀ b ∈ [(ContentId.of codec bytes, bytes)], s.disk.blocks.get? b.1 ≠ none :=
    List.forall_mem_singleton.2 h.stored
  have pinned : ∀ p ∈ [(ContentId.of codec bytes, codec.pinMode)],
      s.disk.pins.get? p.1 = some (.file p.2.file) := List.forall_mem_singleton.2 h.pinned
  cases codec with
  | node =>
    obtain ⟨-, ⟨-, refused⟩ | ⟨-, placed, -⟩⟩ := runs_pinAsNode bytes s
    · exact refused.adds.sameFiles stored fun _ mem => nomatch mem
    · exact placed.adds.sameFiles stored pinned
  | raw =>
    obtain ⟨-, refused⟩ | ⟨-, placed, -⟩ := runs_pinAsBytes bytes s
    · exact refused.adds.sameFiles stored fun _ mem => nomatch mem
    · exact placed.adds.sameFiles stored pinned

end ObjectStore

/-! ### Runs -/

namespace Task

variable {S : List Bytes} {t : Task} {c : Cafe}

theorem sound_step (h : Sound S c.content) (now : Instant) (stored : t.strings ⊆ S) :
    Sound S (t.step now c).2.content := by
  rcases changes_step t now c with quiet | ⟨a, mem, done⟩
  · exact (evolves_quiet h quiet).sound
  · rw [done]
    exact (sound_act h a (List.Subset.trans (strings_of_mem_acts mem) stored)).1.sound

end Task

namespace Traffic

variable {S : List Bytes} {σ : Traffic}

theorem sound_run (events : List Event) (h : Sound S σ.cafe.content)
    (stored : (σ.run events).given ⊆ S) : Sound S (σ.run events).cafe.content := by
  induction events generalizing σ with
  | nil => exact h
  | cons e rest ih =>
    apply ih _ stored
    have given : (σ.step e).given ⊆ S := List.Subset.trans (given_subset_run _ rest) stored
    cases e with
    | arrive o => exact h
    | disturb faults registry mailbox => exact ⟨h.blocks, h.pins⟩
    | advance place now =>
      rw [step] at given ⊢
      split at given
      · exact Task.sound_step h now (List.Subset.trans (List.subset_append_left _ _) given)
      · exact h

end Traffic

/-! ### Messages that come again -/

namespace Delivery

variable {d : Delivery} {c₀ c : Cafe}

/-- A stage works on the update of its message, and puts the message under its own id. -/
def Stage.Carries (d : Delivery) : Stage → Prop
  | .pinNode u | .readNode u _ | .pinBlock u _ => d.update = .ok u
  | .walk _ | .pinBody => ∃ u, d.update = .ok u
  | .record id | .announce id | .finished (.ok (.queued id)) => id = d.bodyId
  | _ => True

theorem carries_after {α : Type} {op : Op α} {post : Except ObjectError α → ObjectStore → Prop}
    {next : α → Stage} (runs : Runs op c.content post)
    (carries : ∀ a s, post (.ok a) s → (next a).Carries d) : (after op next c).1.Carries d := by
  rcases after_cases runs next with ⟨a, s, holds, went⟩ | ⟨e, s, -, went⟩
  · rw [went]
    exact carries a s holds
  · rw [went]
    trivial

theorem carries_step (now : Instant) {stage : Stage} (c : Cafe) (h : stage.Carries d) :
    (d.step now stage c).1.Carries d := by
  cases stage with
  | lookUp =>
    simp only [step]
    split
    · trivial
    · trivial
    · split
      · trivial
      · next update => exact update
  | pinNode u => exact carries_after (runs_pinAsNode u.node c.content) fun _ _ _ => h
  | readNode u id => exact carries_after (runs_readNode id c.content) fun _ _ _ => h
  | pinBlock u node =>
    simp only [step]
    split
    · exact ⟨u, h⟩
    · exact carries_after (runs_pinAsBytes _ c.content) fun _ _ _ => ⟨u, h⟩
  | walk w =>
    simp only [step]
    split
    · exact h
    · exact carries_after (w.runs_step c.content) fun _ _ _ => h
  | pinBody =>
    apply carries_after (runs_pinAsBytes d.body c.content)
    rintro id s (⟨⟨e, failed⟩, -⟩ | ⟨stored, -, -⟩)
    · cases failed
    · cases stored
      rfl
  | record id =>
    simp only [step]
    split
    · exact h
    · trivial
  | announce id => exact h
  | finished r => exact h

theorem mem_objects_of_acts {stage : Stage} (h : stage.Carries d) {a : Act}
    (mem : a ∈ (Task.deliver d stage).acts) : ∃ codec bytes u, a = .pin codec bytes ∧
      d.update = .ok u ∧ (.of codec bytes, bytes) ∈ d.objects u := by
  cases stage with
  | pinNode u =>
    refine ⟨.node, u.node, u, List.mem_singleton.1 mem, h, ?_⟩
    simp [objects]
  | pinBlock u node =>
    obtain ⟨b, carried, rfl⟩ := List.mem_map.1 mem
    refine ⟨.raw, b, u, rfl, h, ?_⟩
    simp only [objects, List.cons_append, List.mem_cons, List.mem_append, List.mem_map]
    exact .inr (.inl ⟨b, carried, rfl⟩)
  | pinBody =>
    obtain ⟨u, update⟩ := h
    refine ⟨.raw, d.body, u, List.mem_singleton.1 mem, update, ?_⟩
    simp [objects, bodyId]
  | _ => cases mem

theorem sameFiles_step (now : Instant) {stage : Stage} (carries : stage.Carries d)
    (settled : ∀ u, d.update = .ok u → ∀ o ∈ d.objects u, c.content.Settled o.1) :
    SameFiles c.content (d.step now stage c).2.content := by
  have changes : (Task.deliver d stage).Changes c.content (d.step now stage c).2.content :=
    Task.changes_step _ now c
  rcases changes with quiet | ⟨a, mem, done⟩
  · exact quiet.sameFiles
  · obtain ⟨codec, bytes, u, rfl, update, object⟩ := mem_objects_of_acts carries mem
    rw [done]
    exact sameFiles_pin (settled u update _ object)

end Delivery

/-- A message whose objects are stored and pinned changes no file, however its delivery ends. -/
theorem Cafe.sameFiles_deliver {d : Delivery} {c : Cafe} (now : Instant)
    (settled : ∀ u, d.update = .ok u → ∀ o ∈ d.objects u, c.content.Settled o.1) :
    SameFiles c.content (c.deliver now d).2.content := by
  have keeps : ∀ stage c', stage.Carries d ∧ SameFiles c.content c'.content →
      (d.step now stage c').1.Carries d ∧
        SameFiles c.content (d.step now stage c').2.content := by
    rintro stage c' ⟨carries, same⟩
    refine ⟨Delivery.carries_step now c' carries, same.trans ?_⟩
    apply Delivery.sameFiles_step now carries
    intro u update o object
    exact (settled u update o object).same same
  have begun : Delivery.Stage.Carries d .lookUp ∧ SameFiles c.content c.content :=
    ⟨trivial, .refl _⟩
  exact (Delivery.run_invariant d now keeps begun).2

end Relay
