import Relay.Proofs.Content.Writing

/-!
# What store operations add

`Adds blocks pins s t` says that a store has become another by no more than these blocks, added
where none stood, and these pins, set and not removed. Each operation has one lemma that says what
it adds, with success and without, whatever stands in the directories before.
-/

namespace Relay

def PinMode.file (m : PinMode) : Bytes := Text.Utf8.ofText m.name

namespace ObjectStore

open Disk

def BlockAdded (blocks : List (ContentId × Bytes)) : Area.Change ContentId := fun id old new =>
  old = none ∧ ∃ bytes, (id, bytes) ∈ blocks ∧ new = some (.file bytes)

def PinSet (pins : List (ContentId × PinMode)) : Area.Change ContentId := fun id _ new =>
  ∃ mode, (id, mode) ∈ pins ∧ new = some (.file mode.file)

structure Adds (blocks : List (ContentId × Bytes)) (pins : List (ContentId × PinMode))
    (s t : ObjectStore) : Prop extends Scribbles s t where
  blocks : s.disk.blocks.Differs (BlockAdded blocks) t.disk.blocks
  pins : s.disk.pins.Differs (PinSet pins) t.disk.pins

variable {s t u : ObjectStore} {bs bs' : List (ContentId × Bytes)}
  {ps ps' : List (ContentId × PinMode)}

theorem Adds.refl (bs : List (ContentId × Bytes)) (ps : List (ContentId × PinMode))
    (s : ObjectStore) : Adds bs ps s s := ⟨.refl s, .refl _ _, .refl _ _⟩

theorem Adds.mono (h : Adds bs ps s t) (hb : bs ⊆ bs') (hp : ps ⊆ ps') :
    Adds bs' ps' s t where
  toScribbles := h.toScribbles
  blocks := h.blocks.mono fun _ _ _ ⟨free, bytes, added, new⟩ => ⟨free, bytes, hb added, new⟩
  pins := h.pins.mono fun _ _ _ ⟨mode, set, new⟩ => ⟨mode, hp set, new⟩

theorem Adds.trans (h : Adds bs ps s t) (h' : Adds bs ps t u) :
    Adds bs ps s u where
  toScribbles := h.toScribbles.trans h'.toScribbles
  blocks := h.blocks.trans h'.blocks fun _ _ _ _ first second => by
    obtain ⟨_, bytes, _, rfl⟩ := first
    obtain ⟨free, _⟩ := second
    cases free
  pins := h.pins.trans h'.pins fun _ _ _ _ _ second => second

theorem Adds.append (h : Adds bs ps s t) (h' : Adds bs' ps' t u) :
    Adds (bs ++ bs') (ps ++ ps') s u :=
  (h.mono (List.subset_append_left _ _) (List.subset_append_left _ _)).trans
    (h'.mono (List.subset_append_right _ _) (List.subset_append_right _ _))

theorem Adds.block_stays (h : Adds bs ps s t) {id : ContentId} {e : Entry}
    (there : s.disk.blocks.get? id = some e) : t.disk.blocks.get? id = some e := by
  rcases h.blocks.get? id with same | ⟨free, _⟩
  · rw [same, there]
  · rw [there] at free
    cases free

/-! ### Operations that only read -/

/-- Nothing has changed but the script of faults. -/
structure Quiet (s t : ObjectStore) : Prop where
  same : ∃ faults, t = { s with disk := { s.disk with faults } }
  clean : s.disk.faults = [] → t.disk.faults = []

theorem Quiet.refl (s : ObjectStore) : Quiet s s := ⟨⟨s.disk.faults, rfl⟩, id⟩

theorem Quiet.trans (h : Quiet s t) (h' : Quiet t u) : Quiet s u := by
  obtain ⟨⟨faults, rfl⟩, clean⟩ := h
  obtain ⟨⟨faults', rfl⟩, clean'⟩ := h'
  exact ⟨⟨faults', rfl⟩, fun none => clean' (clean none)⟩

theorem Quiet.blocks (h : Quiet s t) : t.disk.blocks = s.disk.blocks := by
  obtain ⟨⟨faults, rfl⟩, _⟩ := h
  rfl

theorem Quiet.pins (h : Quiet s t) : t.disk.pins = s.disk.pins := by
  obtain ⟨⟨faults, rfl⟩, _⟩ := h
  rfl

theorem Quiet.adds (h : Quiet s t) : Adds bs ps s t := by
  obtain ⟨⟨faults, rfl⟩, clean⟩ := h
  exact ⟨⟨rfl, Nat.le_refl _, .refl _ _, fun none => ⟨clean none, fun _ => .inl rfl⟩⟩, .refl _ _,
    .refl _ _⟩

theorem quiet_tail (s : ObjectStore) :
    Quiet s { s with disk := { s.disk with faults := s.disk.faults.tail } } :=
  ⟨⟨_, rfl⟩, fun none => by rw [none]; rfl⟩

theorem runs_io {α : Type} {access : Access α} {post : Except IoError α → Disk → Prop}
    (h : Runs access s.disk post) :
    Runs (io access) s fun r t => ∃ r' d, post r' d ∧ r = r'.mapError .io ∧
      t = { s with disk := d } := by
  unfold io
  refine runs_attempt_bind h fun r d found => ?_
  cases r with
  | ok a => exact ⟨.ok a, d, found, rfl, rfl⟩
  | error e => exact ⟨.error e, d, found, rfl, rfl⟩

theorem runs_blockExists (id : ContentId) (d : Disk) :
    Runs (blockExists id) d fun r d' => d' = { d with faults := d.faults.tail } ∧
      ∀ b, r = .ok b → d.blocks.contains id = .ok b := by
  refine runs_read (fun _ => rfl) (fun e _ => ⟨rfl, fun b h => by cases h⟩) fun b found => ?_
  exact ⟨rfl, fun b' h => by cases h; exact found⟩

theorem runs_readBlock (id : ContentId) (d : Disk) :
    Runs (readBlock id) d fun r d' => d' = { d with faults := d.faults.tail } ∧
      ∀ bytes, r = .ok bytes → d.blocks.get? id = some (.file bytes) := by
  refine runs_read (fun _ => rfl) (fun e _ => ⟨rfl, fun b h => by cases h⟩) fun b found => ?_
  exact ⟨rfl, fun b' h => by cases h; exact Area.read_eq_ok_iff.1 found⟩

theorem runs_readPin (id : ContentId) (d : Disk) :
    Runs (readPin id) d fun r d' => d' = { d with faults := d.faults.tail } ∧
      ∀ bytes, r = .ok bytes → d.pins.get? id = some (.file bytes) := by
  refine runs_read (fun _ => rfl) (fun e _ => ⟨rfl, fun b h => by cases h⟩) fun b found => ?_
  exact ⟨rfl, fun b' h => by cases h; exact Area.read_eq_ok_iff.1 found⟩

theorem runs_contains (id : ContentId) (s : ObjectStore) :
    Runs (contains id) s fun r t => Quiet s t ∧
      ∀ b, r = .ok b → s.disk.blocks.contains id = .ok b := by
  refine (runs_io (runs_blockExists id s.disk)).mono ?_
  rintro r t ⟨r', d, ⟨rfl, found⟩, rfl, rfl⟩
  refine ⟨quiet_tail s, fun b h => found b ?_⟩
  cases r' with
  | ok b' => cases h; rfl
  | error e => cases h

theorem runs_fetch (id : ContentId) (s : ObjectStore) :
    Runs (fetch id) s fun r t => Quiet s t ∧
      ∀ bytes, r = .ok bytes → s.disk.blocks.get? id = some (.file bytes) := by
  unfold fetch
  refine runs_attempt_bind (runs_readBlock id s.disk) ?_
  rintro r d ⟨rfl, found⟩
  cases r with
  | ok bytes => exact runs_pure ⟨quiet_tail s, fun b h => by cases h; exact found bytes rfl⟩
  | error e =>
    cases e
    all_goals exact runs_throw ⟨quiet_tail s, fun b h => by cases h⟩

theorem runs_readNode (id : ContentId) (s : ObjectStore) :
    Runs (readNode id) s fun r t => Quiet s t ∧ ∀ node, r = .ok node → id.codec = .node ∧
      ∃ bytes, s.disk.blocks.get? id = some (.file bytes) ∧ Node.ofBytes bytes = .ok node := by
  unfold readNode
  split
  · exact ⟨.refl s, fun node h => by cases h⟩
  · next codec =>
    have codec : id.codec = .node := by simpa using codec
    refine runs_bind (runs_fetch id s) ?_ ?_
    · rintro bytes t ⟨quiet, found⟩
      cases decoded : Node.ofBytes bytes with
      | ok node =>
        refine runs_pure ⟨quiet, fun node' h => ?_⟩
        cases h
        exact ⟨codec, bytes, found bytes rfl, decoded⟩
      | error fault => exact runs_throw ⟨quiet, fun node h => by cases h⟩
    · rintro e t ⟨quiet, _⟩
      exact ⟨quiet, fun node h => by cases h⟩

theorem runs_pinOf? (id : ContentId) (s : ObjectStore) :
    Runs (pinOf? id) s fun r t => Quiet s t ∧ ∀ mode, r = .ok (some mode) → ∃ bytes text,
      s.disk.pins.get? id = some (.file bytes) ∧ Text.Utf8.decode bytes = .ok text ∧
      mode = .ofText text := by
  unfold pinOf?
  refine runs_attempt_bind (runs_readPin id s.disk) ?_
  rintro r d ⟨rfl, found⟩
  cases r with
  | ok bytes =>
    dsimp only
    cases decoded : Text.Utf8.decode bytes with
    | ok text =>
      refine runs_pure ⟨quiet_tail s, fun mode h => ?_⟩
      cases h
      exact ⟨bytes, text, found bytes rfl, decoded, rfl⟩
    | error fault => exact runs_throw ⟨quiet_tail s, fun mode h => by cases h⟩
  | error e =>
    cases e
    all_goals first
      | exact runs_pure ⟨quiet_tail s, fun mode h => by cases h⟩
      | exact runs_throw ⟨quiet_tail s, fun mode h => by cases h⟩

theorem runs_status (id : ContentId) (s : ObjectStore) :
    Runs (status id) s fun _ t => Quiet s t := by
  unfold status
  refine runs_bind (runs_pinOf? id s) ?_ fun e t h => h.1
  rintro mode t ⟨quiet, _⟩
  cases mode with
  | some mode => exact runs_pure quiet
  | none =>
    refine runs_bind (runs_contains id t) ?_ fun e u h => quiet.trans h.1
    rintro found u ⟨quiet', _⟩
    exact runs_pure (quiet.trans quiet')

/-! ### Operations that write -/

theorem adds_block {id : ContentId} {bytes : Bytes} {r : Except ObjectError Unit}
    (free : s.disk.blocks.get? id = none) (h : Placing .blocks id bytes s r t) :
    Adds [(id, bytes)] [] s t ∧ t.disk.pins = s.disk.pins ∧
      (r = .ok () → t.disk.blocks.get? id ≠ none) := by
  have pins : t.disk.pins = s.disk.pins := h.other
  rcases h.placed with ⟨rfl, written⟩ | ⟨⟨e, rfl⟩, same⟩
  · obtain ⟨differs, file⟩ := Area.write_eq_ok written
    have added : s.disk.blocks.Differs (BlockAdded [(id, bytes)]) t.disk.blocks := by
      refine differs.imp fun k ⟨named, new⟩ => ?_
      subst named
      exact ⟨free, bytes, List.mem_singleton.2 rfl, new⟩
    refine ⟨⟨h.scribbles, added, pins ▸ .refl _ _⟩, pins, fun _ => ?_⟩
    change (Place.blocks.area t.disk).get? id ≠ none
    rw [file]
    exact fun none => by cases none
  · have same : t.disk.blocks = s.disk.blocks := same
    exact ⟨⟨h.scribbles, same ▸ .refl _ _, pins ▸ .refl _ _⟩, pins, fun ok => by cases ok⟩

theorem runs_addBlock (id : ContentId) (bytes : Bytes) (s : ObjectStore) :
    Runs (addBlock id bytes) s fun r t => Adds [(id, bytes)] [] s t ∧
      t.disk.pins = s.disk.pins ∧ (r = .ok () → t.disk.blocks.get? id ≠ none) := by
  unfold addBlock
  refine runs_bind (runs_contains id s) ?_ ?_
  · rintro found t ⟨quiet, seen⟩
    cases found with
    | true =>
      refine runs_pure ⟨quiet.adds, quiet.pins, fun _ => ?_⟩
      rw [quiet.blocks]
      exact Area.contains_eq_true_iff.1 (seen true rfl)
    | false =>
      have free : t.disk.blocks.get? id = none := by
        rw [quiet.blocks]
        exact Area.get?_of_not_contains (seen false rfl)
      refine (runs_writeFile .blocks id bytes t).mono fun r u placing => ?_
      obtain ⟨adds, pins, there⟩ := adds_block free placing
      exact ⟨quiet.adds.trans adds, pins.trans quiet.pins, there⟩
  · rintro e t ⟨quiet, _⟩
    exact ⟨quiet.adds, quiet.pins, fun h => by cases h⟩

/-- A pin is set, or the pins are as they were. -/
theorem runs_writePin (id : ContentId) (mode : PinMode) (s : ObjectStore) :
    Runs (writePin id mode) s fun r t => t.disk.blocks = s.disk.blocks ∧
      (r = .ok () ∧ Adds [] [(id, mode)] s t ∧ t.disk.pins.get? id = some (.file mode.file) ∨
        (∃ e, r = .error e) ∧ Adds [] [] s t ∧ t.disk.pins = s.disk.pins) := by
  unfold writePin
  refine (runs_writeFile .pins id mode.file s).mono fun r t h => ?_
  have blocks : t.disk.blocks = s.disk.blocks := h.other
  refine ⟨blocks, ?_⟩
  rcases h.placed with ⟨rfl, written⟩ | ⟨failed, same⟩
  · obtain ⟨differs, file⟩ := Area.write_eq_ok written
    have set : s.disk.pins.Differs (PinSet [(id, mode)]) t.disk.pins := by
      refine differs.mono fun k old new ⟨named, new⟩ => ?_
      subst named
      exact ⟨mode, List.mem_singleton.2 rfl, new⟩
    exact .inl ⟨rfl, ⟨h.scribbles, blocks ▸ .refl _ _, set⟩, file⟩
  · have same : t.disk.pins = s.disk.pins := same
    exact .inr ⟨failed, ⟨h.scribbles, blocks ▸ .refl _ _, same ▸ .refl _ _⟩, same⟩

/-- The pin that stands under an id reads as the given mode. -/
def PinReads (s : ObjectStore) (id : ContentId) (mode : PinMode) : Prop :=
  ∃ bytes text, s.disk.pins.get? id = some (.file bytes) ∧
    Text.Utf8.decode bytes = .ok text ∧ mode = .ofText text

theorem PinReads.unique {id : ContentId} {mode mode' : PinMode} (h : PinReads s id mode)
    (h' : PinReads s id mode') : mode = mode' := by
  obtain ⟨bytes, text, file, decoded, rfl⟩ := h
  obtain ⟨bytes', text', file', decoded', rfl⟩ := h'
  rw [file] at file'
  cases file'
  rw [decoded] at decoded'
  cases decoded'
  rfl

/-- A pin that the store has set reads as what was set. -/
theorem pinReads_of_file {id : ContentId} {mode : PinMode}
    (file : s.disk.pins.get? id = some (.file mode.file)) : PinReads s id mode := by
  have reads : ∀ mode : PinMode, (Text.Utf8.decode mode.file).toOption.map PinMode.ofText =
      some mode := by
    intro mode
    cases mode <;> decide +kernel
  have known := reads mode
  cases decoded : Text.Utf8.decode mode.file with
  | error fault => rw [decoded] at known; cases known
  | ok text =>
    rw [decoded] at known
    exact ⟨_, text, file, decoded, (Option.some.inj known).symm⟩

theorem runs_pinDirectly (id : ContentId) (s : ObjectStore) :
    Runs (pinDirectly id) s fun r t => t.disk.blocks = s.disk.blocks ∧
      (r = .ok () ∧ Adds [] [(id, .direct)] s t ∧
          (t.disk.pins.get? id = some (.file PinMode.direct.file) ∨ PinReads t id .recursive) ∨
        (∃ e, r = .error e) ∧ Adds [] [] s t ∧ t.disk.pins = s.disk.pins) := by
  unfold pinDirectly
  refine runs_bind (runs_pinOf? id s) ?_ ?_
  · rintro mode t ⟨quiet, seen⟩
    split
    · refine (runs_writePin id .direct t).mono ?_
      rintro r u ⟨blocks, h⟩
      refine ⟨blocks.trans quiet.blocks, ?_⟩
      rcases h with ⟨rfl, adds, set⟩ | ⟨failed, adds, same⟩
      · exact .inl ⟨rfl, quiet.adds.trans adds, .inl set⟩
      · exact .inr ⟨failed, quiet.adds.trans adds, same.trans quiet.pins⟩
    · next recursive =>
      have recursive : mode = some .recursive := by simpa using recursive
      obtain ⟨bytes, text, file, decoded, reads⟩ := seen .recursive (congrArg _ recursive)
      have file : t.disk.pins.get? id = some (.file bytes) := by rw [quiet.pins, file]
      exact runs_pure ⟨quiet.blocks, .inl ⟨rfl, quiet.adds, .inr ⟨bytes, text, file, decoded,
        reads⟩⟩⟩
  · rintro e t ⟨quiet, _⟩
    exact ⟨quiet.blocks, .inr ⟨⟨e, rfl⟩, quiet.adds, quiet.pins⟩⟩

theorem runs_checkLimit (bytes : Bytes) (s : ObjectStore) :
    Runs (checkLimit bytes) s fun _ t => t = s := by
  unfold checkLimit
  refine runs_get_bind ?_
  dsimp only
  split
  · exact runs_throw rfl
  · exact runs_pure rfl

/-! ### Pinning -/

structure Pinned (id : ContentId) (bytes : Bytes) (mode : PinMode) (s t : ObjectStore) : Prop where
  adds : Adds [(id, bytes)] [(id, mode)] s t
  present : t.disk.blocks.get? id ≠ none

/-- An object that is refused may be stored, but its pin is as it was. -/
structure Refused (id : ContentId) (bytes : Bytes) (s t : ObjectStore) : Prop where
  adds : Adds [(id, bytes)] [] s t
  pins : t.disk.pins = s.disk.pins

theorem runs_pinAsNode (bytes : Bytes) (s : ObjectStore) :
    Runs (pinAsNode bytes) s fun r t =>
      ((∀ node, Node.ofBytes bytes ≠ .ok node) → (∃ e, r = .error e) ∧ t = s) ∧
      ((∃ e, r = .error e) ∧ Refused (.of .node bytes) bytes s t ∨
        r = .ok (.of .node bytes) ∧ Pinned (.of .node bytes) bytes .recursive s t ∧
          t.disk.pins.get? (.of .node bytes) = some (.file PinMode.recursive.file)) := by
  have unchanged : Refused (.of .node bytes) bytes s s := ⟨.refl _ _ _, rfl⟩
  unfold pinAsNode
  refine runs_bind (runs_checkLimit bytes s) ?_ ?_
  · rintro ⟨⟩ t rfl
    cases decoded : Node.ofBytes bytes with
    | error fault =>
      exact runs_throw ⟨fun _ => ⟨⟨_, rfl⟩, rfl⟩, .inl ⟨⟨_, rfl⟩, unchanged⟩⟩
    | ok node =>
      have never : ¬∀ node', Except.ok node ≠ (Except.ok node' : Except Wire.Fault Node) :=
        fun h => h node rfl
      dsimp only
      refine runs_bind (runs_addBlock (.of .node bytes) bytes t) ?_ ?_
      · rintro ⟨⟩ u ⟨adds, pins, there⟩
        refine runs_bind (runs_writePin (.of .node bytes) .recursive u) ?_ ?_
        · rintro ⟨⟩ v ⟨blocks, ⟨-, set, pinned⟩ | ⟨⟨e, failed⟩, -⟩⟩
          · refine runs_pure ⟨fun h => absurd h never, .inr ⟨rfl, ⟨?_, ?_⟩, pinned⟩⟩
            · exact adds.append set
            · rw [blocks]
              exact there rfl
          · cases failed
        · rintro e v ⟨blocks, ⟨ok, -⟩ | ⟨-, adds', same⟩⟩
          · cases ok
          · refine ⟨fun h => absurd h never, .inl ⟨⟨e, rfl⟩, ?_, same.trans pins⟩⟩
            exact adds.append adds'
      · rintro e u ⟨adds, pins, -⟩
        exact ⟨fun h => absurd h never, .inl ⟨⟨e, rfl⟩, adds, pins⟩⟩
  · rintro e t rfl
    exact ⟨fun _ => ⟨⟨e, rfl⟩, rfl⟩, .inl ⟨⟨e, rfl⟩, unchanged⟩⟩

theorem runs_pinAsBytes (bytes : Bytes) (s : ObjectStore) :
    Runs (pinAsBytes bytes) s fun r t =>
      (∃ e, r = .error e) ∧ Refused (.of .raw bytes) bytes s t ∨
      r = .ok (.of .raw bytes) ∧ Pinned (.of .raw bytes) bytes .direct s t ∧
        (t.disk.pins.get? (.of .raw bytes) = some (.file PinMode.direct.file) ∨
          PinReads t (.of .raw bytes) .recursive) := by
  unfold pinAsBytes
  refine runs_bind (runs_checkLimit bytes s) ?_ ?_
  · rintro ⟨⟩ t rfl
    refine runs_bind (runs_addBlock (.of .raw bytes) bytes t) ?_ ?_
    · rintro ⟨⟩ u ⟨adds, pins, there⟩
      refine runs_bind (runs_pinDirectly (.of .raw bytes) u) ?_ ?_
      · rintro ⟨⟩ v ⟨blocks, ⟨-, set, pinned⟩ | ⟨⟨e, failed⟩, -⟩⟩
        · refine runs_pure (.inr ⟨rfl, ⟨adds.append set, ?_⟩, pinned⟩)
          rw [blocks]
          exact there rfl
        · cases failed
      · rintro e v ⟨blocks, ⟨ok, -⟩ | ⟨-, adds', same⟩⟩
        · cases ok
        · exact .inl ⟨⟨e, rfl⟩, adds.append adds', same.trans pins⟩
    · rintro e u ⟨adds, pins, -⟩
      exact .inl ⟨⟨e, rfl⟩, adds, pins⟩
  · rintro e t rfl
    exact .inl ⟨⟨e, rfl⟩, .refl _ _ _, rfl⟩

/-- A pin is removed, or the pins are as they were. -/
theorem runs_unpin (id : ContentId) (s : ObjectStore) :
    Runs (unpin id) s fun _ t => t.disk.blocks = s.disk.blocks ∧
      s.disk.pins.Differs (Area.Removed id) t.disk.pins := by
  unfold unpin
  refine runs_attempt_bind (runs_removePin id s.disk) ?_
  rintro r d ⟨blocks, -, -, ⟨⟨e, rfl⟩, same⟩ | ⟨rfl, removed⟩⟩
  · have unchanged : s.disk.pins.Differs (Area.Removed id) d.pins := same ▸ .refl _ _
    cases e
    all_goals first
      | exact runs_pure ⟨blocks, unchanged⟩
      | exact runs_throw ⟨blocks, unchanged⟩
  · exact runs_pure ⟨blocks, (Area.remove_eq_ok removed).1⟩

end ObjectStore

end Relay
