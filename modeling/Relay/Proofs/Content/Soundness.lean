import Relay.Proofs.Content.Reach

/-!
# Sound stores

A store is sound if each block holds bytes that were stored and that hash to its id, nodes can be
read, and each pin is of the mode that goes with its codec. Operations keep a store sound, take no
block away, and take a pin away only if they are to (`Evolves`). As long as no two of the stored
byte strings have one hash, what a sound store holds under the id of one of them is that string.
-/

namespace Relay

def Codec.pinMode : Codec → PinMode
  | .raw => .direct
  | .node => .recursive

/-- No two of the byte strings have one hash. -/
def CollisionFree (S : List Bytes) : Prop :=
  ∀ a ∈ S, ∀ b ∈ S, Digest.of a = Digest.of b → a = b

namespace ObjectStore

/-- A pin of the mode that goes with its id stands there. -/
def IsPinned (s : ObjectStore) (id : ContentId) : Prop :=
  s.disk.pins.get? id = some (.file id.codec.pinMode.file)

structure Fit (S : List Bytes) (id : ContentId) (bytes : Bytes) : Prop where
  stored : bytes ∈ S
  named : id = .of id.codec bytes
  decodes : id.codec = .node → ∃ node, Node.ofBytes bytes = .ok node

structure Sound (S : List Bytes) (s : ObjectStore) : Prop where
  blocks : ∀ id e, s.disk.blocks.get? id = some e → ∃ bytes, e = .file bytes ∧ Fit S id bytes
  pins : ∀ id e, s.disk.pins.get? id = some e → e = .file id.codec.pinMode.file

/-- What a store becomes by operations that may take away no pins but the given ones. -/
structure Evolves (S : List Bytes) (removed : List ContentId) (s t : ObjectStore) : Prop where
  sound : Sound S t
  grows : Grows s t
  lost : ∀ id, s.disk.pins.get? id ≠ none → t.disk.pins.get? id = none → id ∈ removed

variable {S : List Bytes} {s t : ObjectStore} {id : ContentId} {bytes : Bytes}

/-! ### What a sound store holds -/

theorem Sound.isPinned (h : Sound S s) (there : s.disk.pins.get? id ≠ none) :
    s.IsPinned id := by
  cases entry : s.disk.pins.get? id with
  | none => exact absurd entry there
  | some e => rw [IsPinned, entry, h.pins id e entry]

/-- Under the id of a byte string stands that string. -/
theorem Sound.block_of_present (h : Sound S s) (free : CollisionFree S) (stored : bytes ∈ S)
    {codec : Codec} (there : s.disk.blocks.get? (.of codec bytes) ≠ none) :
    s.disk.blocks.get? (.of codec bytes) = some (.file bytes) := by
  cases entry : s.disk.blocks.get? (.of codec bytes) with
  | none => exact absurd entry there
  | some e =>
    obtain ⟨bytes', rfl, fit⟩ := h.blocks _ e entry
    have digest : Digest.of bytes = Digest.of bytes' := congrArg ContentId.digest fit.named
    rw [free bytes stored bytes' fit.stored digest]

/-- The bytes of an id are there, and a node if the id says so. -/
def Available (s : ObjectStore) (id : ContentId) : Prop :=
  ∃ bytes, s.disk.blocks.get? id = some (.file bytes) ∧
    (id.codec = .node → ∃ node, Node.ofBytes bytes = .ok node)

theorem Sound.available (h : Sound S s) (there : s.disk.blocks.get? id ≠ none) :
    s.Available id := by
  cases entry : s.disk.blocks.get? id with
  | none => exact absurd entry there
  | some e =>
    obtain ⟨bytes, rfl, fit⟩ := h.blocks id e entry
    exact ⟨bytes, entry, fit.decodes⟩

/-- A raw object is never pinned recursively. -/
theorem Sound.not_recursive (h : Sound S s) (codec : id.codec = .raw) :
    ¬PinReads s id .recursive := by
  rintro ⟨bytes, text, file, decoded, reads⟩
  have direct : bytes = PinMode.direct.file := by
    have := h.pins id _ file
    rw [codec] at this
    cases this
    rfl
  have mode : (Text.Utf8.decode PinMode.direct.file).toOption.map PinMode.ofText =
      some .direct := by decide +kernel
  rw [← direct, decoded] at mode
  cases reads.trans (Option.some.inj mode)

/-! ### What operations do to a sound store -/

theorem Evolves.refl (h : Sound S s) : Evolves S [] s s :=
  ⟨h, .refl s, fun _ there none => absurd none there⟩

theorem evolves_adds {bs : List (ContentId × Bytes)} {ps : List (ContentId × PinMode)}
    (h : Sound S s) (adds : Adds bs ps s t) (blocks : ∀ b ∈ bs, Fit S b.1 b.2)
    (pins : ∀ p ∈ ps, p.2 = p.1.codec.pinMode) : Evolves S [] s t where
  sound := by
    constructor
    · intro id e entry
      rcases adds.blocks.get? id with same | ⟨_, bytes, added, new⟩
      · exact h.blocks id e (same ▸ entry)
      · rw [entry] at new
        cases new
        exact ⟨bytes, rfl, blocks _ added⟩
    · intro id e entry
      rcases adds.pins.get? id with same | ⟨mode, set, new⟩
      · exact h.pins id e (same ▸ entry)
      · rw [entry] at new
        cases new
        rw [← pins _ set]
  grows := fun id e there => adds.block_stays there
  lost := by
    intro id there none
    rcases adds.pins.get? id with same | ⟨mode, _, new⟩
    · rw [same] at none
      exact absurd none there
    · rw [none] at new
      cases new

theorem evolves_quiet (h : Sound S s) (quiet : Quiet s t) : Evolves S [] s t := by
  have adds : Adds [] [] s t := quiet.adds
  exact evolves_adds h adds (fun _ mem => nomatch mem) fun _ mem => nomatch mem

theorem fit_node (stored : bytes ∈ S) (decodes : ∃ node, Node.ofBytes bytes = .ok node) :
    Fit S (.of .node bytes) bytes := ⟨stored, rfl, fun _ => decodes⟩

theorem fit_raw (stored : bytes ∈ S) : Fit S (.of .raw bytes) bytes :=
  ⟨stored, rfl, fun node => nomatch node⟩

structure Held (s : ObjectStore) (id : ContentId) (bytes : Bytes) : Prop where
  block : s.disk.blocks.get? id = some (.file bytes)
  pinned : s.IsPinned id

theorem sound_pinAsNode (h : Sound S s) (stored : bytes ∈ S) :
    Runs (pinAsNode bytes) s fun r t => Evolves S [] s t ∧ ∀ id, r = .ok id →
      id = .of .node bytes ∧ t.disk.blocks.get? id ≠ none ∧ t.IsPinned id ∧
        ∃ node, Node.ofBytes bytes = .ok node := by
  refine (runs_pinAsNode bytes s).mono ?_
  rintro r t ⟨undecodable, outcome⟩
  -- bytes that are no node leave the store as it was; what is stored below is a node
  by_cases decodes : ∃ node, Node.ofBytes bytes = .ok node
  · have fits : ∀ b ∈ [(ContentId.of .node bytes, bytes)], Fit S b.1 b.2 := by
      intro b mem
      rw [List.mem_singleton.1 mem]
      exact fit_node stored decodes
    rcases outcome with ⟨⟨e, rfl⟩, refused⟩ | ⟨rfl, pinned, pin⟩
    · refine ⟨evolves_adds h refused.adds fits (fun _ mem => nomatch mem), ?_⟩
      intro id ok
      cases ok
    · have evolves : Evolves S [] s t := evolves_adds h pinned.adds fits (by simp; rfl)
      refine ⟨evolves, fun id ok => ?_⟩
      cases ok
      exact ⟨rfl, pinned.present, pin, decodes⟩
  · obtain ⟨⟨e, rfl⟩, rfl⟩ := undecodable fun node h => decodes ⟨node, h⟩
    refine ⟨.refl h, fun id ok => ?_⟩
    cases ok

theorem sound_pinAsBytes (h : Sound S s) (stored : bytes ∈ S) :
    Runs (pinAsBytes bytes) s fun r t => Evolves S [] s t ∧ ∀ id, r = .ok id →
      id = .of .raw bytes ∧ t.disk.blocks.get? id ≠ none ∧ t.IsPinned id := by
  have fits : ∀ b ∈ [(ContentId.of .raw bytes, bytes)], Fit S b.1 b.2 := by
    intro b mem
    rw [List.mem_singleton.1 mem]
    exact fit_raw stored
  refine (runs_pinAsBytes bytes s).mono ?_
  rintro r t (⟨⟨e, rfl⟩, refused⟩ | ⟨rfl, pinned, pin⟩)
  · refine ⟨evolves_adds h refused.adds fits (fun _ mem => nomatch mem), ?_⟩
    intro id ok
    cases ok
  · have evolves : Evolves S [] s t := evolves_adds h pinned.adds fits (by simp; rfl)
    refine ⟨evolves, fun id ok => ?_⟩
    cases ok
    exact ⟨rfl, pinned.present, pin.resolve_right (evolves.sound.not_recursive rfl)⟩

theorem evolves_pinAsNode (h : Sound S s) (free : CollisionFree S) (stored : bytes ∈ S) :
    Runs (pinAsNode bytes) s fun r t => Evolves S [] s t ∧ ∀ id, r = .ok id →
      id = .of .node bytes ∧ Held t id bytes ∧ ∃ node, Node.ofBytes bytes = .ok node := by
  refine (sound_pinAsNode h stored).mono ?_
  rintro r t ⟨evolves, outcome⟩
  refine ⟨evolves, fun id ok => ?_⟩
  obtain ⟨rfl, present, pinned, decodes⟩ := outcome id ok
  exact ⟨rfl, ⟨evolves.sound.block_of_present free stored present, pinned⟩, decodes⟩

theorem evolves_pinAsBytes (h : Sound S s) (free : CollisionFree S) (stored : bytes ∈ S) :
    Runs (pinAsBytes bytes) s fun r t => Evolves S [] s t ∧ ∀ id, r = .ok id →
      id = .of .raw bytes ∧ Held t id bytes := by
  refine (sound_pinAsBytes h stored).mono ?_
  rintro r t ⟨evolves, outcome⟩
  refine ⟨evolves, fun id ok => ?_⟩
  obtain ⟨rfl, present, pinned⟩ := outcome id ok
  exact ⟨rfl, evolves.sound.block_of_present free stored present, pinned⟩

theorem evolves_unpin (h : Sound S s) (id : ContentId) :
    Runs (unpin id) s fun _ t => Evolves S [id] s t := by
  refine (runs_unpin id s).mono ?_
  rintro r t ⟨blocks, pins⟩
  refine ⟨⟨?_, ?_⟩, ?_, ?_⟩
  · rw [blocks]
    exact h.blocks
  · intro id' e entry
    rcases pins.get? id' with same | ⟨_, gone⟩
    · exact h.pins id' e (same ▸ entry)
    · rw [entry] at gone
      cases gone
  · intro id' e there
    rw [blocks]
    exact there
  · intro id' there none
    rcases pins.get? id' with same | ⟨named, _⟩
    · rw [same] at none
      exact absurd none there
    · exact List.mem_singleton.2 named

end ObjectStore

end Relay
