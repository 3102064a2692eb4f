import Relay.Proofs.Content.Tidy

/-!
# Operations that nothing comes between

A store is at rest if it is sound and tidy and no file step is going to fail. There an operation
does exactly what it is for: looking up and reading answer by what stands there, and pinning an
object that fits puts it under its id, where nothing stands yet, and sets its pin
(`ObjectStore.runs_pin`).
-/

namespace Relay

/-! ### Sequences -/

section

variable {ε σ α β : Type} {op : ExceptT ε (StateM σ) α} {next : α → ExceptT ε (StateM σ) β}
  {s t : σ}

theorem bind_of_ok {a : α} (ran : op s = (.ok a, t)) : (op >>= next) s = next a t := by
  simp only [bind, ExceptT.bind, ExceptT.mk, StateT.bind, ran]
  rfl

theorem bind_of_error {e : ε} (ran : op s = (.error e, t)) : (op >>= next) s = (.error e, t) := by
  simp only [bind, ExceptT.bind, ExceptT.mk, StateT.bind, ran]
  rfl

end

/-! ### Directories -/

namespace Area

open ObjectStore (forceEntry)

variable {κ : Type} [DecidableEq κ] {a : Area κ} {k : κ} {bytes : Bytes}

theorem IsDirectory.contains_eq (h : a.IsDirectory) (k : κ) :
    a.contains k = .ok (a.get? k).isSome := by
  obtain ⟨entries, rfl⟩ := h
  rfl

theorem IsDirectory.put (h : a.IsDirectory) (k : κ) (e : Entry) :
    (forceEntry a k e).IsDirectory := by
  obtain ⟨entries, rfl⟩ := h
  exact ⟨_, rfl⟩

theorem IsDirectory.get?_forceEntry (h : a.IsDirectory) (k k' : κ) (e : Entry) :
    (forceEntry a k e).get? k' = if k' = k then some e else a.get? k' := by
  obtain ⟨entries, rfl⟩ := h
  exact Table.get?_put entries k k' e

theorem IsDirectory.write_eq (h : a.IsDirectory) (file : a.get? k ≠ some .directory) :
    a.write k bytes = .ok (forceEntry a k (.file bytes)) := by
  obtain ⟨entries, rfl⟩ := h
  have file : entries.get? k ≠ some .directory := file
  simp only [write, forceEntry]

theorem IsDirectory.read_of_free (h : a.IsDirectory) (free : a.get? k = none) :
    a.read k = .error .notFound := by
  obtain ⟨entries, rfl⟩ := h
  have free : entries.get? k = none := free
  simp only [read, free]

/-- A file under a new name leaves no trace when it is removed. -/
theorem IsDirectory.remove_forceEntry (h : a.IsDirectory) (free : a.get? k = none) :
    (forceEntry a k (.file bytes)).remove k = .ok a := by
  obtain ⟨entries, rfl⟩ := h
  have put : (entries.put k (.file bytes)).get? k = some (.file bytes) := by
    rw [Table.get?_put, if_pos rfl]
  simp only [forceEntry, remove, put, Table.erase_put]
  rw [Table.erase_of_get? free]

end Area

namespace Disk

variable {d : Disk} {p : Place} {id : ContentId} {name : Nat} {bytes : Bytes}

theorem step_of_still {α : Type} {f : Disk → Except IoError (α × Disk)} (still : d.faults = []) :
    step f d = ((f d).map Prod.fst, ((f d).map Prod.snd).toOption.getD d) := by
  have same : { d with faults := d.faults.tail } = d := by
    rw [still, List.tail_nil, ← still]
  unfold step
  split
  · next script =>
    rw [still] at script
    cases script
  · dsimp only
    rw [same]
    cases f d <;> rfl

/-- The disk with a file in a place, whatever stood there. -/
def Place.put (p : Place) (id : ContentId) (bytes : Bytes) (d : Disk) : Disk :=
  match p with
  | .blocks => { d with blocks := ObjectStore.forceEntry d.blocks id (.file bytes) }
  | .pins => { d with pins := ObjectStore.forceEntry d.pins id (.file bytes) }

/-- A file that stands in scratch already is lost. -/
theorem filed_of_still (bytes : Bytes) (still : d.faults = []) (scratch : d.scratch.IsDirectory)
    (new : d.scratch.get? name ≠ some .directory) (place : (p.area d).IsDirectory)
    (file : (p.area d).get? id ≠ some .directory) :
    ∃ left, (ObjectStore.forceEntry d.scratch name (.file bytes)).remove name = .ok left ∧
      (do writeScratch name bytes; p.move id name : Access Unit) d =
        (.ok (), { p.put id bytes d with scratch := left }) := by
  have wrote : writeScratch name bytes d =
      (.ok (), { d with scratch := ObjectStore.forceEntry d.scratch name (.file bytes) }) := by
    rw [writeScratch, step_of_still still, scratch.write_eq new]
    rfl
  have waits : ({ d with scratch := ObjectStore.forceEntry d.scratch name (.file bytes) } :
      Disk).faults = [] := still
  have entry : (ObjectStore.forceEntry d.scratch name (.file bytes)).get? name =
      some (.file bytes) := by
    rw [scratch.get?_forceEntry, if_pos rfl]
  have read := Area.read_eq_ok_iff.2 entry
  obtain ⟨left, removed⟩ := Area.remove_of_file entry
  have written : (p.area d).write id bytes =
      .ok (ObjectStore.forceEntry (p.area d) id (.file bytes)) := place.write_eq file
  refine ⟨left, removed, (bind_of_ok wrote).trans ?_⟩
  cases p with
  | blocks =>
    have written : d.blocks.write id bytes = _ := written
    rw [Place.move, moveToBlocks, step_of_still waits]
    simp only [read, written, removed, bind, Except.bind, pure, Except.pure]
    rfl
  | pins =>
    have written : d.pins.write id bytes = _ := written
    rw [Place.move, moveToPins, step_of_still waits]
    simp only [read, written, removed, bind, Except.bind, pure, Except.pure]
    rfl

theorem file_of_still (still : d.faults = []) (scratch : d.scratch.IsDirectory)
    (free : d.scratch.get? name = none) (place : (p.area d).IsDirectory)
    (file : (p.area d).get? id ≠ some .directory) :
    (do writeScratch name bytes; p.move id name : Access Unit) d = (.ok (), p.put id bytes d) := by
  obtain ⟨left, removed, ran⟩ :=
    filed_of_still bytes still scratch (by rw [free]; simp) place file
  rw [scratch.remove_forceEntry free] at removed
  cases removed
  rw [ran]
  cases p <;> rfl

end Disk

namespace ObjectStore

open Disk

/-- Sound and tidy, and no file step is going to fail. -/
structure AtRest (s : ObjectStore) : Prop where
  sound : ∃ S, Sound S s
  tidy : s.Tidy
  still : s.disk.faults = []

variable {s t u : ObjectStore} {id : ContentId} {bytes : Bytes} {o : ContentId × Bytes}
  {objects : List (ContentId × Bytes)}

theorem Sound.mono {S S' : List Bytes} (h : Sound S s) (more : S ⊆ S') : Sound S' s where
  blocks := by
    intro id e entry
    obtain ⟨bytes, file, fit⟩ := h.blocks id e entry
    exact ⟨bytes, file, more fit.stored, fit.named, fit.decodes⟩
  pins := h.pins

theorem AtRest.place (h : s.AtRest) (p : Place) : (p.area s.disk).IsDirectory := by
  cases p
  · exact h.tidy.blocks
  · exact h.tidy.pins

theorem AtRest.file (h : s.AtRest) (p : Place) (id : ContentId) :
    (p.area s.disk).get? id ≠ some .directory := by
  obtain ⟨S, sound⟩ := h.sound
  intro entry
  cases p with
  | blocks =>
    obtain ⟨bytes, file, -⟩ := sound.blocks id _ entry
    cases file
  | pins => cases sound.pins id _ entry

/-! ### Looking up and reading -/

theorem AtRest.contains_eq (h : s.AtRest) (id : ContentId) :
    contains id s = (.ok (s.disk.blocks.get? id).isSome, s) := by
  have looked : blockExists id s.disk = (.ok (s.disk.blocks.get? id).isSome, s.disk) := by
    rw [blockExists, step_of_still h.still, h.tidy.blocks.contains_eq]
    rfl
  rw [contains, io_apply, looked]
  rfl

/-- Reading leaves no trace in a store where nothing fails. -/
theorem AtRest.quiet_eq (h : s.AtRest) (quiet : Quiet s t) : t = s := by
  obtain ⟨⟨faults, rfl⟩, clean⟩ := quiet
  have none : faults = [] := clean h.still
  rw [none, ← h.still]

theorem AtRest.calm_eq (h : s.AtRest) : s.calm = s := by
  rw [calm, disturbed, ← h.still]

theorem AtRest.readNode_eq (h : s.AtRest) {node : Node} (found : s.nodeAt? id = some node) :
    readNode id s = (.ok node, s) := by
  obtain ⟨codec, bytes, file, decodes⟩ := nodeAt?_eq_some_iff.1 found
  have read := readNode_calm codec file decodes
  rwa [h.calm_eq] at read

/-- A node that is there can be read. -/
theorem AtRest.nodeAt?_of_present (h : s.AtRest) (codec : id.codec = .node)
    (there : s.disk.blocks.get? id ≠ none) : ∃ node, s.nodeAt? id = some node := by
  obtain ⟨S, sound⟩ := h.sound
  obtain ⟨bytes, file, decodes⟩ := sound.available there
  obtain ⟨node, decodes⟩ := decodes codec
  exact ⟨node, nodeAt?_eq_some_iff.2 ⟨codec, bytes, file, decodes⟩⟩

theorem attempt_eq {α : Type} {access : Access α} {r : Except IoError α} {d : Disk}
    (ran : access s.disk = (r, d)) : attempt access s = (.ok r, { s with disk := d }) := by
  simp only [attempt, ExceptT.run, StateT.run, ran]

theorem AtRest.pinOf?_eq (h : s.AtRest) (id : ContentId) : pinOf? id s =
    (.ok ((s.disk.pins.get? id).map fun _ => id.codec.pinMode), s) := by
  obtain ⟨S, sound⟩ := h.sound
  unfold pinOf?
  have looked : readPin id s.disk = ((s.disk.pins.read id), s.disk) := by
    rw [readPin, step_of_still h.still]
    cases s.disk.pins.read id <;> rfl
  refine (bind_of_ok (attempt_eq looked)).trans ?_
  cases entry : s.disk.pins.get? id with
  | none =>
    rw [h.tidy.pins.read_of_free entry]
    rfl
  | some e =>
    have there : s.disk.pins.get? id ≠ none := by rw [entry]; simp
    obtain ⟨bytes, text, file, decoded, mode⟩ := (pinReads_iff sound there _).2 rfl
    rw [Area.read_eq_ok_iff.2 file]
    simp only [decoded, ← mode]
    rfl

/-! ### Writing -/

theorem AtRest.writeFile_eq (h : s.AtRest) (p : Place) (id : ContentId) (bytes : Bytes) :
    writeFile bytes (p.move id) s = (.ok (), { s with
      disk := p.put id bytes s.disk
      nextScratch := s.nextScratch + 1 }) := by
  have filed : (do writeScratch s.nextScratch bytes; p.move id s.nextScratch : Access Unit)
      ({ s with nextScratch := s.nextScratch + 1 } : ObjectStore).disk =
        (.ok (), p.put id bytes s.disk) :=
    file_of_still h.still h.tidy.scratch (h.tidy.fresh s.nextScratch (Nat.le_refl _)) (h.place p)
      (h.file p id)
  unfold writeFile
  refine (bind_of_ok (a := s) rfl).trans ?_
  refine (bind_of_ok (a := PUnit.unit) rfl).trans ?_
  exact bind_of_ok (attempt_eq filed)

/-- The store with another name for the next scratch file. -/
def withName (s : ObjectStore) (name : Nat) : ObjectStore := { s with nextScratch := name }

/-- The store with a block under an id, if nothing stands there. -/
def withBlock (s : ObjectStore) (id : ContentId) (bytes : Bytes) : ObjectStore :=
  if s.disk.blocks.get? id = none then { s with disk := Place.blocks.put id bytes s.disk } else s

/-- The store with the pin that an id asks for. -/
def withPin (s : ObjectStore) (id : ContentId) : ObjectStore :=
  { s with disk := Place.pins.put id id.codec.pinMode.file s.disk }

theorem withBlock_of_free (free : s.disk.blocks.get? id = none) (bytes : Bytes) :
    s.withBlock id bytes = { s with disk := Place.blocks.put id bytes s.disk } := if_pos free

theorem withBlock_of_present (there : s.disk.blocks.get? id ≠ none) (bytes : Bytes) :
    s.withBlock id bytes = s := if_neg there

theorem get?_withBlock (blocks : s.disk.blocks.IsDirectory) (id : ContentId) (bytes : Bytes)
    (id' : ContentId) : (s.withBlock id bytes).disk.blocks.get? id' =
      if id' = id ∧ s.disk.blocks.get? id = none then some (.file bytes)
      else s.disk.blocks.get? id' := by
  by_cases free : s.disk.blocks.get? id = none
  · simp only [withBlock_of_free free, free, and_true]
    exact blocks.get?_forceEntry id id' _
  · rw [withBlock_of_present free, if_neg fun h => free h.2]

theorem AtRest.withName (h : s.AtRest) {name : Nat} (later : s.nextScratch ≤ name) :
    (s.withName name).AtRest := by
  obtain ⟨S, sound⟩ := h.sound
  exact ⟨⟨S, sound.blocks, sound.pins⟩, ⟨h.tidy.blocks, h.tidy.pins, h.tidy.scratch,
    fun next le => h.tidy.fresh next (Nat.le_trans later le)⟩, h.still⟩

theorem AtRest.withBlock (h : s.AtRest) (named : id = .of id.codec bytes)
    (decodes : id.codec = .node → ∃ node, Node.ofBytes bytes = .ok node) :
    (s.withBlock id bytes).AtRest := by
  obtain ⟨S, sound⟩ := h.sound
  have blocks := get?_withBlock h.tidy.blocks id bytes
  by_cases free : s.disk.blocks.get? id = none
  · rw [withBlock_of_free free] at blocks ⊢
    refine ⟨⟨bytes :: S, ?_, sound.pins⟩, ⟨h.tidy.blocks.put id _, h.tidy.pins,
      h.tidy.scratch, h.tidy.fresh⟩, h.still⟩
    intro id' e entry
    rw [blocks id'] at entry
    split at entry
    · next same =>
      cases entry
      rw [same.1]
      exact ⟨bytes, rfl, List.mem_cons_self, named, decodes⟩
    · obtain ⟨bytes', file, fit⟩ := sound.blocks id' e entry
      exact ⟨bytes', file, List.mem_cons_of_mem _ fit.stored, fit.named, fit.decodes⟩
  · rw [withBlock_of_present free]
    exact h

theorem AtRest.withPin (h : s.AtRest) (id : ContentId) : (s.withPin id).AtRest := by
  obtain ⟨S, sound⟩ := h.sound
  refine ⟨⟨S, sound.blocks, ?_⟩, ⟨h.tidy.blocks, h.tidy.pins.put id _,
    h.tidy.scratch, h.tidy.fresh⟩, h.still⟩
  intro id' e entry
  have entry : (forceEntry s.disk.pins id (.file id.codec.pinMode.file)).get? id' = some e := entry
  rw [h.tidy.pins.get?_forceEntry] at entry
  split at entry
  · next same =>
    cases entry
    rw [same]
  · exact sound.pins id' e entry

theorem AtRest.addBlock_eq (h : s.AtRest) (id : ContentId) (bytes : Bytes) :
    ∃ name, s.nextScratch ≤ name ∧
      addBlock id bytes s = (.ok (), (s.withBlock id bytes).withName name) := by
  unfold addBlock
  have looked : io (blockExists id) s = _ := h.contains_eq id
  rw [bind_of_ok looked]
  cases entry : s.disk.blocks.get? id with
  | none =>
    refine ⟨s.nextScratch + 1, Nat.le_succ _, ?_⟩
    rw [withBlock_of_free entry]
    exact h.writeFile_eq .blocks id bytes
  | some e =>
    refine ⟨s.nextScratch, Nat.le_refl _, ?_⟩
    rw [withBlock_of_present (by rw [entry]; exact Option.some_ne_none e)]
    rfl

theorem AtRest.writePin_eq (h : s.AtRest) (id : ContentId) :
    writePin id id.codec.pinMode s = (.ok (), (s.withPin id).withName (s.nextScratch + 1)) :=
  h.writeFile_eq .pins id id.codec.pinMode.file

/-- A raw object is not pinned recursively, so its pin is written. -/
theorem AtRest.pinDirectly_eq (h : s.AtRest) (codec : id.codec = .raw) :
    pinDirectly id s = writePin id id.codec.pinMode s := by
  unfold pinDirectly
  rw [bind_of_ok (h.pinOf?_eq id), codec]
  cases s.disk.pins.get? id <;> rfl

theorem checkLimit_eq (bytes : Bytes) (s : ObjectStore) : checkLimit bytes s =
    (if bytes.length ≤ s.limit then .ok () else .error (.tooLarge bytes.length s.limit), s) := by
  unfold checkLimit
  refine (bind_of_ok (a := s) rfl).trans ?_
  by_cases fits : bytes.length ≤ s.limit
  · rw [if_pos fits, if_neg (Nat.not_lt.2 fits)]
    rfl
  · rw [if_neg fits, if_pos (Nat.not_le.1 fits)]
    rfl

/-! ### Pinning -/

/-- The store with an object under its id, if nothing stands there, and its pin. -/
def stock (s : ObjectStore) (o : ContentId × Bytes) : ObjectStore :=
  (s.withBlock o.1 o.2).withPin o.1

/-- The objects have been stored and pinned, and else there is only a later name for the next
scratch file. -/
def Gains (objects : List (ContentId × Bytes)) (s t : ObjectStore) : Prop :=
  ∃ name, s.nextScratch ≤ name ∧ t = (objects.foldl stock s).withName name

theorem get?_stock (blocks : s.disk.blocks.IsDirectory) (o : ContentId × Bytes) (id : ContentId) :
    (s.stock o).disk.blocks.get? id =
      if id = o.1 ∧ s.disk.blocks.get? o.1 = none then some (.file o.2)
      else s.disk.blocks.get? id := get?_withBlock blocks o.1 o.2 id

theorem AtRest.stock (h : s.AtRest) (codec : Codec) (bytes : Bytes)
    (decodes : codec = .node → ∃ node, Node.ofBytes bytes = .ok node) :
    (s.stock (.of codec bytes, bytes)).AtRest := by
  have placed : (s.withBlock (.of codec bytes) bytes).AtRest := h.withBlock rfl decodes
  exact placed.withPin (.of codec bytes)

theorem stock_withName (s : ObjectStore) (name : Nat) (o : ContentId × Bytes) :
    (s.withName name).stock o = (s.stock o).withName name := by
  have same : (s.withName name).disk = s.disk := rfl
  by_cases free : s.disk.blocks.get? o.1 = none
  · rw [stock, stock, withBlock_of_free free, withBlock_of_free (same ▸ free)]
    rfl
  · rw [stock, stock, withBlock_of_present free, withBlock_of_present (same ▸ free)]
    rfl

theorem foldl_stock_withName (objects : List (ContentId × Bytes)) (s : ObjectStore) (name : Nat) :
    objects.foldl stock (s.withName name) = (objects.foldl stock s).withName name := by
  induction objects generalizing s with
  | nil => rfl
  | cons o rest ih => rw [List.foldl_cons, stock_withName, ih, List.foldl_cons]

theorem limit_foldl_stock (objects : List (ContentId × Bytes)) (s : ObjectStore) :
    (objects.foldl stock s).limit = s.limit := by
  induction objects generalizing s with
  | nil => rfl
  | cons o rest ih =>
    rw [List.foldl_cons, ih, stock, withPin, withBlock]
    split <;> rfl

theorem Gains.append {more : List (ContentId × Bytes)} (h : Gains objects s t)
    (h' : Gains more t u) : Gains (objects ++ more) s u := by
  obtain ⟨name, later, rfl⟩ := h
  obtain ⟨name', later', rfl⟩ := h'
  refine ⟨name', Nat.le_trans later later', ?_⟩
  rw [foldl_stock_withName, List.foldl_append]
  rfl

theorem Gains.disk (h : Gains objects s t) : t.disk = (objects.foldl stock s).disk := by
  obtain ⟨name, -, rfl⟩ := h
  rfl

theorem Gains.limit (h : Gains objects s t) : t.limit = s.limit := by
  obtain ⟨name, -, rfl⟩ := h
  exact limit_foldl_stock objects s

theorem Gains.get? (h : Gains [o] s t) (rest : s.AtRest) (id : ContentId) :
    t.disk.blocks.get? id = if id = o.1 ∧ s.disk.blocks.get? o.1 = none then some (.file o.2)
      else s.disk.blocks.get? id := by
  rw [h.disk]
  exact get?_stock rest.tidy.blocks o id

theorem Gains.grows (h : Gains [o] s t) (rest : s.AtRest) : Grows s t := by
  intro id e there
  rw [h.get? rest, if_neg ?_, there]
  rintro ⟨rfl, free⟩
  rw [there] at free
  cases free

theorem Gains.present (h : Gains [o] s t) (rest : s.AtRest) : t.disk.blocks.get? o.1 ≠ none := by
  rw [h.get? rest]
  split
  · exact Option.some_ne_none _
  · next there => exact fun free => there ⟨rfl, free⟩

/-- What a store takes as an object of a codec. -/
structure Takes (s : ObjectStore) (codec : Codec) (bytes : Bytes) : Prop where
  fits : bytes.length ≤ s.limit
  decodes : codec = .node → ∃ node, Node.ofBytes bytes = .ok node

theorem AtRest.stored (h : s.AtRest) (codec : Codec) (bytes : Bytes)
    (decodes : codec = .node → ∃ node, Node.ofBytes bytes = .ok node) :
    ∃ u, addBlock (.of codec bytes) bytes s = (.ok (), u) ∧ u.AtRest ∧
      ∃ t, writePin (.of codec bytes) codec.pinMode u = (.ok (), t) ∧ t.AtRest ∧
        Gains [(.of codec bytes, bytes)] s t := by
  obtain ⟨name, later, added⟩ := h.addBlock_eq (.of codec bytes) bytes
  have next : (s.withBlock (.of codec bytes) bytes).nextScratch = s.nextScratch := by
    unfold ObjectStore.withBlock
    split <;> rfl
  have placed : (s.withBlock (.of codec bytes) bytes).AtRest := h.withBlock rfl decodes
  have between := placed.withName (next ▸ later)
  refine ⟨_, added, between, _, between.writePin_eq _, ?_, name + 1, Nat.le_succ_of_le later, rfl⟩
  exact (between.withPin _).withName (Nat.le_succ _)

theorem AtRest.pin_of_takes {codec : Codec} (h : s.AtRest) (takes : s.Takes codec bytes) :
    ∃ t, (Act.pin codec bytes).op s = (.ok (.of codec bytes), t) ∧ t.AtRest ∧
      Gains [(.of codec bytes, bytes)] s t := by
  have passes : checkLimit bytes s = (.ok (), s) := by rw [checkLimit_eq, if_pos takes.fits]
  obtain ⟨u, added, between, t, pinned, rest, gains⟩ := h.stored codec bytes takes.decodes
  refine ⟨t, ?_, rest, gains⟩
  cases codec with
  | node =>
    obtain ⟨node, decoded⟩ := takes.decodes rfl
    refine (bind_of_ok passes).trans ?_
    rw [decoded]
    exact (bind_of_ok added).trans (bind_of_ok pinned)
  | raw =>
    have directly : pinDirectly (.of .raw bytes) u = (.ok (), t) :=
      (between.pinDirectly_eq rfl).trans pinned
    exact (bind_of_ok passes).trans ((bind_of_ok added).trans (bind_of_ok directly))

theorem pin_of_not_takes {codec : Codec} (not : ¬s.Takes codec bytes) :
    ∃ e, (Act.pin codec bytes).op s = (.error e, s) := by
  by_cases fits : bytes.length ≤ s.limit
  case neg =>
    have refused : checkLimit bytes s = (.error (.tooLarge bytes.length s.limit), s) := by
      rw [checkLimit_eq, if_neg fits]
    exact ⟨_, by cases codec <;> exact bind_of_error refused⟩
  case pos =>
    have passes : checkLimit bytes s = (.ok (), s) := by rw [checkLimit_eq, if_pos fits]
    cases codec with
    | node =>
      cases decoded : Node.ofBytes bytes with
      | error fault =>
        refine ⟨.malformed fault, (bind_of_ok passes).trans ?_⟩
        rw [decoded]
        rfl
      | ok node => exact absurd ⟨fits, fun _ => ⟨node, decoded⟩⟩ not
    | raw => exact absurd ⟨fits, fun node => by cases node⟩ not

/-- An object is stored and pinned if the store takes it, and nothing is changed if not. -/
theorem runs_pin (h : s.AtRest) (codec : Codec) (bytes : Bytes) :
    Runs (Act.pin codec bytes).op s fun r t => t.AtRest ∧
      (s.Takes codec bytes ∧ r = .ok (.of codec bytes) ∧
          Gains [(.of codec bytes, bytes)] s t ∨
        ¬s.Takes codec bytes ∧ (∃ e, r = .error e) ∧ t = s) := by
  by_cases takes : s.Takes codec bytes
  · obtain ⟨t, ends, rest, gains⟩ := h.pin_of_takes takes
    rw [Runs, ends]
    exact ⟨rest, .inl ⟨takes, rfl, gains⟩⟩
  · obtain ⟨e, ends⟩ := pin_of_not_takes takes
    rw [Runs, ends]
    exact ⟨h, .inr ⟨takes, ⟨e, rfl⟩, rfl⟩⟩

end ObjectStore

end Relay
