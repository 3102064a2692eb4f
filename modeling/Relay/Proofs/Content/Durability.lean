import Relay.Proofs.Content.Soundness
import Relay.Proofs.Except
import Relay.Proofs.Wire.Canonical

/-!
# What a store that nobody tampers with is like

Objects are pinned and pins are taken away, in any order, and any file step of any call may fail.
Then each block holds what its id says, each pin stands beside a block and is of the mode of its
id, and no block goes away or changes. So a node that is there can be read, and what was pinned
can be had back (`ObjectStore.objects_endure`). One lemma says what a call does to such a store
(`evolves_call`), another carries it through any number of calls (`evolves_after`).
-/

namespace Relay.ObjectStore

/-! ### Calls -/

inductive Act where
  | pin (codec : Codec) (bytes : Bytes)
  | unpin (id : ContentId)

def Act.op : Act → Op ContentId
  | .pin .node bytes => pinAsNode bytes
  | .pin .raw bytes => pinAsBytes bytes
  | .unpin id => do
    ObjectStore.unpin id
    return id

def Act.strings : Act → List Bytes
  | .pin _ bytes => [bytes]
  | .unpin _ => []

def Act.unpins : Act → List ContentId
  | .pin _ _ => []
  | .unpin id => [id]

/-- An act, and which of its file steps fail. -/
structure Call where
  act : Act
  faults : List (Option IoError) := []

/-- From here on file steps fail as told. -/
def disturbed (s : ObjectStore) (faults : List (Option IoError)) : ObjectStore :=
  { s with disk := { s.disk with faults } }

def Call.run (call : Call) (s : ObjectStore) : Except ObjectError ContentId × ObjectStore :=
  call.act.op (s.disturbed call.faults)

def after (s : ObjectStore) : List Call → ObjectStore
  | [] => s
  | call :: rest => after (call.run s).2 rest

def strings (calls : List Call) : List Bytes := calls.flatMap fun call => call.act.strings

/-- The store as it is when no file step fails. -/
def calm (s : ObjectStore) : ObjectStore := s.disturbed []

/-- What stands in the store, whatever its ids. -/
def contents (s : ObjectStore) : List Bytes :=
  s.blockIds.filterMap fun id =>
    match s.disk.blocks.get? id with
    | some (.file bytes) => some bytes
    | _ => none

theorem after_append (s : ObjectStore) (calls rest : List Call) :
    s.after (calls ++ rest) = (s.after calls).after rest := by
  induction calls generalizing s with
  | nil => rfl
  | cons call calls ih => exact ih _

variable {S : List Bytes} {s t : ObjectStore} {id : ContentId} {bytes : Bytes}

theorem mem_contents (file : s.disk.blocks.get? id = some (.file bytes)) :
    bytes ∈ s.contents := by
  have listed : id ∈ s.blockIds := Area.mem_keys (by rw [file]; exact Option.some_ne_none _)
  exact List.mem_filterMap.2 ⟨id, listed, by rw [file]⟩

/-! ### The invariant -/

def Backed (s : ObjectStore) : Prop :=
  ∀ id, s.disk.pins.get? id ≠ none → s.disk.blocks.get? id ≠ none

structure InOrder (s : ObjectStore) : Prop where
  blocks : ∀ id e, s.disk.blocks.get? id = some e → ∃ bytes, e = .file bytes ∧
    Digest.of bytes = id.digest ∧ (id.codec = .node → ∃ node, Node.ofBytes bytes = .ok node)
  backed : Backed s
  pins : ∀ id, s.disk.pins.get? id ≠ none → ∀ mode, PinReads s id mode ↔ mode = id.codec.pinMode

theorem Backed.adds {bs : List (ContentId × Bytes)} {ps : List (ContentId × PinMode)}
    (h : Backed s) (adds : Adds bs ps s t) (there : ∀ p ∈ ps, t.disk.blocks.get? p.1 ≠ none) :
    Backed t := by
  intro id pinned
  rcases adds.pins.get? id with same | ⟨mode, set, -⟩
  · rw [same] at pinned
    cases block : s.disk.blocks.get? id with
    | none => exact absurd block (h id pinned)
    | some e =>
      rw [adds.block_stays block]
      simp
  · exact there _ set

theorem Backed.refused (h : Backed s) (refused : Refused id bytes s t) : Backed t :=
  h.adds refused.adds fun _ mem => nomatch mem

theorem Backed.pinned {mode : PinMode} (h : Backed s) (pinned : Pinned id bytes mode s t) :
    Backed t := by
  apply h.adds pinned.adds
  intro p mem
  rw [List.mem_singleton.1 mem]
  exact pinned.present

theorem backed_act (h : Backed s) (act : Act) : Backed (act.op s).2 := by
  cases act with
  | pin codec bytes =>
    cases codec with
    | node =>
      obtain ⟨-, ⟨-, refused⟩ | ⟨-, pinned, -⟩⟩ := runs_pinAsNode bytes s
      · exact h.refused refused
      · exact h.pinned pinned
    | raw =>
      obtain ⟨-, refused⟩ | ⟨-, pinned, -⟩ := runs_pinAsBytes bytes s
      · exact h.refused refused
      · exact h.pinned pinned
  | unpin id =>
    have removes : Runs (Act.op (.unpin id)) s fun _ t => t.disk.blocks = s.disk.blocks ∧
        s.disk.pins.Differs (Area.Removed id) t.disk.pins :=
      runs_bind (runs_unpin id s) (fun _ _ h => h) fun _ _ h => h
    obtain ⟨blocks, pins⟩ := removes
    intro id' pinned
    rw [blocks]
    rcases pins.get? id' with same | ⟨-, gone⟩
    · rw [same] at pinned
      exact h id' pinned
    · exact absurd gone pinned

/-- What an act does to a sound store, and where it leaves what it has pinned. -/
theorem sound_act (h : Sound S s) (act : Act) (stored : act.strings ⊆ S) :
    Runs act.op s fun r t => Evolves S act.unpins s t ∧
      ∀ codec bytes id, act = .pin codec bytes → r = .ok id →
        id = .of codec bytes ∧ t.disk.blocks.get? id ≠ none := by
  cases act with
  | pin codec bytes =>
    have mem : bytes ∈ S := stored List.mem_cons_self
    cases codec with
    | node =>
      refine (sound_pinAsNode h mem).mono ?_
      rintro r t ⟨evolves, outcome⟩
      refine ⟨evolves, ?_⟩
      rintro codec bytes' id ⟨⟩ ok
      obtain ⟨named, present, -⟩ := outcome id ok
      exact ⟨named, present⟩
    | raw =>
      refine (sound_pinAsBytes h mem).mono ?_
      rintro r t ⟨evolves, outcome⟩
      refine ⟨evolves, ?_⟩
      rintro codec bytes' id ⟨⟩ ok
      obtain ⟨named, present, -⟩ := outcome id ok
      exact ⟨named, present⟩
  | unpin id =>
    have none : ∀ (r : Except ObjectError ContentId) t, Evolves S [id] s t →
        Evolves S [id] s t ∧ ∀ codec bytes id', Act.unpin id = .pin codec bytes → r = .ok id' →
          id' = .of codec bytes ∧ t.disk.blocks.get? id' ≠ Option.none := by
      intro r t evolves
      exact ⟨evolves, fun codec bytes id' impossible => nomatch impossible⟩
    exact runs_bind (evolves_unpin h id) (fun _ _ => none _ _) fun _ _ => none _ _

/-! ### Runs of calls -/

theorem sound_disturbed (h : Sound S s) (faults : List (Option IoError)) :
    Sound S (s.disturbed faults) := ⟨h.blocks, h.pins⟩

theorem evolves_call (h : Sound S s) (call : Call) (stored : call.act.strings ⊆ S) :
    Sound S (call.run s).2 ∧ Grows s (call.run s).2 ∧
      ∀ codec bytes id, call.act = .pin codec bytes → (call.run s).1 = .ok id →
        id = .of codec bytes ∧ (call.run s).2.disk.blocks.get? id ≠ none := by
  obtain ⟨evolves, outcome⟩ := sound_act (sound_disturbed h call.faults) call.act stored
  exact ⟨evolves.sound, evolves.grows, outcome⟩

theorem evolves_after (calls : List Call) (h : Sound S s) (backed : Backed s)
    (stored : strings calls ⊆ S) :
    Sound S (s.after calls) ∧ Backed (s.after calls) ∧ Grows s (s.after calls) := by
  induction calls generalizing s with
  | nil => exact ⟨h, backed, .refl s⟩
  | cons call rest ih =>
    rw [strings, List.flatMap_cons, List.append_subset] at stored
    obtain ⟨sound, grows, -⟩ := evolves_call h call stored.1
    have backed : Backed (call.run s).2 := backed_act (s := s.disturbed call.faults) backed _
    obtain ⟨sound', backed', grows'⟩ := ih sound backed stored.2
    exact ⟨sound', backed', fun id e there => grows' id e (grows id e there)⟩

theorem pinReads_iff (h : Sound S s) (there : s.disk.pins.get? id ≠ none) (mode : PinMode) :
    PinReads s id mode ↔ mode = id.codec.pinMode := by
  have reads : PinReads s id id.codec.pinMode := pinReads_of_file (h.isPinned there)
  exact ⟨fun read => read.unique reads, fun same => same ▸ reads⟩

theorem inOrder_of_sound (h : Sound S s) (backed : Backed s) : InOrder s where
  blocks := by
    intro id e entry
    obtain ⟨bytes, file, fit⟩ := h.blocks id e entry
    refine ⟨bytes, file, ?_, fit.decodes⟩
    rw [fit.named]
    rfl
  backed := backed
  pins := fun _ there mode => pinReads_iff h there mode

/-! ### Reading -/

theorem fetch_calm (file : s.disk.blocks.get? id = some (.file bytes)) :
    fetch id s.calm = (.ok bytes, s.calm) := by
  have read : s.disk.blocks.read id = .ok bytes := Area.read_eq_ok_iff.2 file
  have step : Disk.readBlock id s.calm.disk = (.ok bytes, s.calm.disk) := by
    simp only [Disk.readBlock, Disk.step, calm, disturbed, read, Except.map, List.tail_nil]
  simp only [fetch, attempt, bind, ExceptT.bind, ExceptT.mk, StateT.bind, ExceptT.run, StateT.run,
    step]
  rfl

theorem readNode_calm {node : Node} (codec : id.codec = .node)
    (file : s.disk.blocks.get? id = some (.file bytes)) (decodes : Node.ofBytes bytes = .ok node) :
    readNode id s.calm = (.ok node, s.calm) := by
  unfold readNode
  rw [if_neg (not_not_intro codec)]
  simp only [bind, ExceptT.bind, ExceptT.mk, StateT.bind, ExceptT.bindCont, fetch_calm file,
    decodes, pure, ExceptT.pure]
  rfl

theorem InOrder.readable (h : InOrder s) (codec : id.codec = .node)
    (there : s.disk.blocks.get? id ≠ none) : ∃ node, (readNode id s.calm).1 = .ok node := by
  cases entry : s.disk.blocks.get? id with
  | none => exact absurd entry there
  | some e =>
    obtain ⟨bytes, rfl, -, decodes⟩ := h.blocks id e entry
    obtain ⟨node, decodes⟩ := decodes codec
    exact ⟨node, by rw [readNode_calm codec entry decodes]⟩

/-- What was pinned can be had back, and a node in its written form. -/
structure Recalls (s : ObjectStore) (codec : Codec) (bytes : Bytes) (id : ContentId) : Prop where
  fetch : (fetch id s.calm).1 = .ok bytes
  node : codec = .node → ∃ node, (readNode id s.calm).1 = .ok node ∧ node.toBytes = bytes

theorem InOrder.recalls {codec : Codec} (h : InOrder s)
    (there : s.disk.blocks.get? (.of codec bytes) ≠ none)
    (free : CollisionFree (bytes :: s.contents)) : Recalls s codec bytes (.of codec bytes) := by
  cases entry : s.disk.blocks.get? (.of codec bytes) with
  | none => exact absurd entry there
  | some e =>
    obtain ⟨bytes', rfl, digest, decodes⟩ := h.blocks _ e entry
    have same : bytes' = bytes :=
      free _ (List.mem_cons_of_mem _ (mem_contents entry)) _ List.mem_cons_self digest
    subst same
    refine ⟨by rw [fetch_calm entry], fun named => ?_⟩
    obtain ⟨node, decodes⟩ := decodes named
    exact ⟨node, by rw [readNode_calm named entry decodes],
      Node.canonical.write_read _ _ decodes⟩

/-! ### From an empty store on -/

def empty (limit : Nat) : ObjectStore := { limit }

theorem sound_empty (limit : Nat) : Sound S (empty limit) := by
  constructor
  all_goals
    intro id e entry
    cases entry

theorem backed_empty (limit : Nat) : Backed (empty limit) := fun _ pinned => absurd rfl pinned

theorem sound_after (limit : Nat) {calls : List Call} (stored : strings calls ⊆ S) :
    Sound S ((empty limit).after calls) ∧ Backed ((empty limit).after calls) := by
  obtain ⟨sound, backed, -⟩ :=
    evolves_after calls (sound_empty limit) (backed_empty limit) stored
  exact ⟨sound, backed⟩

theorem grows_after (limit : Nat) (earlier later : List Call) :
    Grows ((empty limit).after earlier) ((empty limit).after (earlier ++ later)) := by
  obtain ⟨sound, backed⟩ := sound_after limit (List.subset_append_left (strings earlier)
    (strings later))
  rw [after_append]
  exact (evolves_after later sound backed (List.subset_append_right _ _)).2.2

/-- Whatever is pinned in an empty store and unpinned again, and whichever file steps fail: the
store stays in order, its nodes can be read, no block goes away or changes, and what a call has
pinned can be had back ever after, unless something else that is stored has its hash. -/
theorem objects_endure (limit : Nat) (calls : List Call) :
    InOrder ((empty limit).after calls) ∧
    (∀ id, id.codec = .node → ((empty limit).after calls).disk.blocks.get? id ≠ none →
      ∃ node, (readNode id ((empty limit).after calls).calm).1 = .ok node) ∧
    (∀ earlier later, calls = earlier ++ later →
      Grows ((empty limit).after earlier) ((empty limit).after calls)) ∧
    ∀ earlier call later codec bytes id, calls = earlier ++ call :: later →
      call.act = .pin codec bytes → (call.run ((empty limit).after earlier)).1 = .ok id →
      CollisionFree (bytes :: ((empty limit).after calls).contents) →
      Recalls ((empty limit).after calls) codec bytes id := by
  obtain ⟨sound, backed⟩ := sound_after limit (List.Subset.refl (strings calls))
  have inOrder := inOrder_of_sound sound backed
  refine ⟨inOrder, fun id codec there => inOrder.readable codec there, ?_, ?_⟩
  · rintro earlier later rfl
    exact grows_after limit earlier later
  · rintro earlier call later codec bytes id rfl pins ok free
    obtain ⟨sound, -⟩ := sound_after limit (List.subset_append_left (strings earlier)
      call.act.strings)
    obtain ⟨-, -, outcome⟩ := evolves_call sound call (List.subset_append_right _ _)
    obtain ⟨rfl, present⟩ := outcome codec bytes id pins ok
    -- the block that the call leaves stays through the calls after it
    have done : (empty limit).after (earlier ++ [call]) =
        (call.run ((empty limit).after earlier)).2 := after_append _ _ _
    have grows := grows_after limit (earlier ++ [call]) later
    rw [done, List.append_assoc, List.singleton_append] at grows
    apply inOrder.recalls _ free
    rw [grows.present present]
    exact present

/-! ### A pin that fails, is made again, and is taken away -/

def leafNode : Bytes := Node.toBytes { data := [1], links := [] }

/-- The pin of a node fails when it is moved into place, and so does the removal of the file. -/
def restless : List Call :=
  [{ act := .pin .node leafNode
     faults := [none, none, none, none, some .notADirectory, some .notFound] },
   { act := .pin .raw leafNode }, { act := .pin .node leafNode },
   { act := .unpin (.of .node leafNode) }]

theorem restless_recalls :
    (({ act := .pin .node leafNode } : Call).run ((empty 100).after (restless.take 2))).1 =
        .ok (.of .node leafNode) ∧
    CollisionFree (leafNode :: ((empty 100).after restless).contents) ∧
    ((empty 100).after restless).disk.pins.get? (.of .node leafNode) = none ∧
    Recalls ((empty 100).after restless) .node leafNode (.of .node leafNode) := by
  have ok : (({ act := .pin .node leafNode } : Call).run
      ((empty 100).after (restless.take 2))).1 = .ok (.of .node leafNode) :=
    toOption_eq_some_iff.1 (by decide +kernel)
  have free : CollisionFree (leafNode :: ((empty 100).after restless).contents) := by
    unfold CollisionFree
    decide +kernel
  obtain ⟨-, -, -, recalls⟩ := objects_endure 100 restless
  exact ⟨ok, free, by decide +kernel,
    recalls (restless.take 2) _ (restless.drop 3) .node leafNode _ rfl rfl ok free⟩

end Relay.ObjectStore
