import Relay.Proofs.Content.Durability

/-!
# The bounds of an operation

Whatever stands in the directories and whichever file steps fail, an operation changes no block
and no pin but those of its own id, and no pin at all if it fails. A scratch file that was not
there before is there after it only if its last file step failed by itself (`Sweeping`, which a
sequence has when its parts have it). What was pinned is reported so.
-/

namespace Relay.ObjectStore

open Disk

variable {α β : Type} {s t u : ObjectStore} {id : ContentId} {mode : PinMode}

/-! ### What is left in scratch -/

/-- The last file step failed by itself, so there were faults to come. -/
def Faltered (s t : ObjectStore) : Prop := ∃ e, some e :: t.disk.faults <:+ s.disk.faults

/-- No scratch file is new, unless the operation broke off where a file step failed by itself. -/
structure Sweeps (s : ObjectStore) (r : Except ObjectError α) (t : ObjectStore) : Prop where
  spends : t.disk.faults <:+ s.disk.faults
  scratch : s.disk.scratch.Differs
    (fun _ _ new => new = none ∨ (∃ e, r = .error e) ∧ Faltered s t) t.disk.scratch

def Sweeping (op : Op α) : Prop := ∀ s, Runs op s (Sweeps s)

theorem Sweeps.refl (s : ObjectStore) (r : Except ObjectError α) : Sweeps s r s :=
  ⟨List.suffix_refl _, .refl _ _⟩

theorem Sweeps.error {e : ObjectError} (h : Sweeps s (.error e : Except ObjectError α) t) :
    Sweeps s (.error e : Except ObjectError β) t :=
  ⟨h.spends, h.scratch.mono fun _ _ _ => Or.imp_right fun last => ⟨⟨e, rfl⟩, last.2⟩⟩

theorem Sweeps.trans {a : α} {r : Except ObjectError β} (h : Sweeps s (.ok a) t)
    (h' : Sweeps t r u) : Sweeps s r u where
  spends := h'.spends.trans h.spends
  scratch := by
    refine (h.scratch.mono fun _ _ _ change => ?_).trans (h'.scratch.mono fun _ _ _ change => ?_)
      fun _ _ _ _ _ second => second
    · obtain gone | ⟨⟨e, failed⟩, -⟩ := change
      · exact .inl gone
      · cases failed
    · exact change.imp_right fun ⟨failed, e, last⟩ => ⟨failed, e, last.trans h.spends⟩

theorem sweeping_pure (a : α) : Sweeping (pure a) := fun s => runs_pure (.refl s _)

theorem sweeping_throw (e : ObjectError) : Sweeping (throw e : Op α) :=
  fun s => runs_throw (.refl s _)

theorem Sweeping.bind {op : Op α} {next : α → Op β} (h : Sweeping op)
    (h' : ∀ a, Sweeping (next a)) : Sweeping (op >>= next) := fun s =>
  runs_bind (h s) (fun a t first => (h' a t).mono fun _ _ second => first.trans second)
    fun _ _ failed => failed.error

theorem sweeping_attempt {access : Access α}
    (blind : ∀ d, Runs access d fun _ d' => d'.scratch = d.scratch ∧ d'.faults = d.faults.tail) :
    Sweeping (attempt access) := by
  intro s
  obtain ⟨scratch, faults⟩ := blind s.disk
  refine ⟨?_, ?_⟩
  · show (access s.disk).2.faults <:+ _
    rw [faults]
    exact List.tail_suffix _
  · show s.disk.scratch.Differs _ (access s.disk).2.scratch
    rw [scratch]
    exact .refl _ _

theorem Sweeping.io {access : Access α} (h : Sweeping (attempt access)) : Sweeping (io access) := by
  refine h.bind fun r => ?_
  cases r with
  | ok a => exact sweeping_pure a
  | error e => exact sweeping_throw (.io e)

/-! ### Files -/

theorem spends_file (p : Place) (name : Nat) (id : ContentId) (bytes : Bytes) (d : Disk) :
    Runs (do writeScratch name bytes; p.move id name) d fun _ d' => d'.faults <:+ d.faults := by
  have moves : ∀ d, Runs (p.move id name) d fun _ d' => d'.faults = d.faults.tail := by
    intro d
    refine (runs_move p name id d).mono ?_
    rintro r d' (⟨e, rfl, rfl⟩ | ⟨-, -, -, -, -, -, faults⟩)
    · rfl
    · exact faults
  refine runs_bind (runs_writeScratch name bytes d) ?_ ?_
  · rintro ⟨⟩ d₁ (⟨e, failed, -⟩ | ⟨-, scratch, -, rfl⟩)
    · cases failed
    refine (moves _).mono fun r d' faults => ?_
    rw [faults]
    exact (List.tail_suffix _).trans (List.tail_suffix _)
  · rintro e d₁ (⟨-, -, rfl⟩ | ⟨failed, -⟩)
    · exact List.tail_suffix _
    · cases failed

/-- What was written and not moved is removed, unless that step fails by itself. -/
theorem sweeps_cleanup {d : Disk} (e : ObjectError) (touches : Touches s.nextScratch s.disk d)
    (spends : d.faults <:+ s.disk.faults)
    (left : d.scratch = s.disk.scratch ∨
      ∃ bytes, d.scratch.get? s.nextScratch = some (.file bytes)) :
    Runs (do
      let _ ← attempt (Disk.removeScratch s.nextScratch)
      throw e : Op Unit) { s with disk := d, nextScratch := s.nextScratch + 1 } (Sweeps s) := by
  refine runs_attempt_bind (runs_removeScratch s.nextScratch d) ?_
  rintro r d' ⟨-, -, faults, removed⟩
  refine runs_throw ⟨?_, ?_⟩
  · show d'.faults <:+ _
    rw [faults]
    exact (List.tail_suffix _).trans spends
  · show s.disk.scratch.Differs _ d'.scratch
    -- the removal fails by itself, finds nothing to remove, or leaves nothing under the name
    rcases removed with ⟨same, e', script | stuck⟩ | removed
    · rw [same]
      exact touches.scratch.mono fun _ _ _ _ => .inr ⟨⟨e, rfl⟩, e', script ▸ spends⟩
    · rcases left with unchanged | ⟨bytes, file⟩
      · rw [same, unchanged]
        exact .refl _ _
      · obtain ⟨b, succeeded⟩ := Area.remove_of_file file
        rw [stuck] at succeeded
        cases succeeded
    · obtain ⟨differs, gone⟩ := Area.remove_eq_ok removed
      have named := touches.scratch.trans (differs.mono fun _ _ _ h => h.1)
        fun _ _ _ _ same _ => same
      exact named.imp fun name same => .inl (same ▸ gone)

theorem sweeping_writeFile (p : Place) (id : ContentId) (bytes : Bytes) :
    Sweeping (writeFile bytes (p.move id)) := by
  intro s
  unfold writeFile
  refine runs_get_bind (runs_modify_bind ?_)
  refine runs_attempt_bind ((runs_file p s.nextScratch id bytes s.disk).and
    (spends_file p s.nextScratch id bytes s.disk)) ?_
  rintro r d ⟨⟨filed, touches⟩, spends⟩
  cases filed with
  | unwritten e same areas => exact sweeps_cleanup _ touches spends (.inl same)
  | unmoved e written areas => exact sweeps_cleanup _ touches spends (.inr ⟨bytes, written⟩)
  | moved placed gone other =>
    exact runs_pure ⟨spends, touches.scratch.imp fun name same => .inl (same ▸ gone)⟩

/-! ### Operations leave no scratch files -/

theorem sweeping_checkLimit (bytes : Bytes) : Sweeping (checkLimit bytes) := by
  intro s
  unfold checkLimit
  refine runs_get_bind ?_
  dsimp only
  split
  · exact runs_throw (.refl s _)
  · exact runs_pure (.refl s _)

theorem sweeping_contains (id : ContentId) : Sweeping (contains id) := by
  refine (sweeping_attempt fun d => (runs_blockExists id d).mono ?_).io
  rintro r d' ⟨rfl, -⟩
  exact ⟨rfl, rfl⟩

theorem sweeping_fetch (id : ContentId) : Sweeping (fetch id) := by
  refine (sweeping_attempt fun d => (runs_readBlock id d).mono ?_).bind fun r => ?_
  · rintro r d' ⟨rfl, -⟩
    exact ⟨rfl, rfl⟩
  · cases r with
    | ok bytes => exact sweeping_pure bytes
    | error e => cases e <;> exact sweeping_throw _

theorem sweeping_pinOf? (id : ContentId) : Sweeping (pinOf? id) := by
  refine (sweeping_attempt fun d => (runs_readPin id d).mono ?_).bind fun r => ?_
  · rintro r d' ⟨rfl, -⟩
    exact ⟨rfl, rfl⟩
  · cases r with
    | ok bytes =>
      dsimp only
      cases Text.Utf8.decode bytes with
      | ok text => exact sweeping_pure _
      | error fault => exact sweeping_throw _
    | error e => cases e <;> first | exact sweeping_pure none | exact sweeping_throw _

theorem sweeping_readNode (id : ContentId) : Sweeping (readNode id) := by
  unfold readNode
  split
  · exact fun s => .refl s _
  · refine (sweeping_fetch id).bind fun bytes => ?_
    cases Node.ofBytes bytes with
    | ok node => exact sweeping_pure node
    | error fault => exact sweeping_throw _

theorem sweeping_status (id : ContentId) : Sweeping (status id) := by
  refine (sweeping_pinOf? id).bind fun mode => ?_
  cases mode with
  | some mode => exact sweeping_pure _
  | none => exact (sweeping_contains id).bind fun found => sweeping_pure _

theorem sweeping_unpin (id : ContentId) : Sweeping (ObjectStore.unpin id) := by
  refine (sweeping_attempt fun d => (runs_removePin id d).mono ?_).bind fun r => ?_
  · rintro r d' ⟨-, scratch, faults, -⟩
    exact ⟨scratch, faults⟩
  · cases r with
    | ok a => exact sweeping_pure ()
    | error e => cases e <;> first | exact sweeping_pure () | exact sweeping_throw _

theorem runs_unpin_failed (id : ContentId) (s : ObjectStore) :
    Runs (ObjectStore.unpin id) s fun r t => ∀ e, r = .error e → t.disk.pins = s.disk.pins := by
  refine runs_attempt_bind (runs_removePin id s.disk) ?_
  rintro r d ⟨-, -, -, ⟨⟨e, rfl⟩, same⟩ | ⟨rfl, -⟩⟩
  · cases e <;> exact fun _ _ => same
  · exact runs_pure fun e failed => by cases failed

theorem sweeping_addBlock (id : ContentId) (bytes : Bytes) : Sweeping (addBlock id bytes) := by
  refine (sweeping_contains id).bind fun found => ?_
  cases found with
  | true => exact sweeping_pure ()
  | false => exact sweeping_writeFile .blocks id bytes

theorem sweeping_writePin (id : ContentId) (mode : PinMode) : Sweeping (writePin id mode) :=
  sweeping_writeFile .pins id mode.file

theorem sweeping_pinDirectly (id : ContentId) : Sweeping (pinDirectly id) := by
  refine (sweeping_pinOf? id).bind fun mode => ?_
  split
  · exact sweeping_writePin id .direct
  · exact sweeping_pure ()

theorem sweeping_pinAsNode (bytes : Bytes) : Sweeping (pinAsNode bytes) := by
  refine (sweeping_checkLimit bytes).bind fun _ => ?_
  cases Node.ofBytes bytes with
  | error fault => exact sweeping_throw _
  | ok node =>
    refine (sweeping_addBlock _ bytes).bind fun _ => ?_
    exact (sweeping_writePin _ .recursive).bind fun _ => sweeping_pure _

theorem sweeping_pinAsBytes (bytes : Bytes) : Sweeping (pinAsBytes bytes) := by
  refine (sweeping_checkLimit bytes).bind fun _ => ?_
  refine (sweeping_addBlock _ bytes).bind fun _ => ?_
  exact (sweeping_pinDirectly _).bind fun _ => sweeping_pure _

/-! ### What is reported -/

/-- No file step says of itself that what is there is not. -/
def Trusted (s : ObjectStore) : Prop := some .notFound ∉ s.disk.faults

theorem runs_pinOf?_of_reads (reads : PinReads s id mode) (trusted : s.Trusted) :
    Runs (pinOf? id) s fun r _ =>
      r = .ok (some mode) ∨ (∃ e, r = .error e) ∧ s.disk.faults ≠ [] := by
  obtain ⟨bytes, text, file, decoded, rfl⟩ := reads
  have there : s.disk.pins.read id = .ok bytes := Area.read_eq_ok_iff.2 file
  have found : Runs (readPin id) s.disk fun r _ =>
      r = .ok bytes ∨ ∃ e, r = .error e ∧ some e ∈ s.disk.faults := by
    refine runs_read (fun _ => rfl) (fun e failed => .inr ⟨e, rfl, ?_⟩) fun bytes' same => .inl ?_
    · rcases failed with script | failed
      · rw [script]
        exact List.mem_cons_self
      · rw [there] at failed
        cases failed
    · rw [← same, there]
  unfold pinOf?
  refine runs_attempt_bind found ?_
  rintro r d (rfl | ⟨e, rfl, fault⟩)
  · dsimp only
    rw [decoded]
    exact runs_pure (.inl rfl)
  · have faults := List.ne_nil_of_mem fault
    cases e
    case notFound => exact absurd fault trusted
    all_goals exact runs_throw (.inr ⟨⟨_, rfl⟩, faults⟩)

/-- The pin that is reported, where nothing fails, is the one that stands there. -/
theorem status_calm_of_reads (reads : PinReads s id mode) :
    (status id s.calm).1 = .ok (some mode) := by
  have reported : Runs (status id) s.calm fun r _ => r = .ok (some mode) := by
    refine runs_bind (runs_pinOf?_of_reads reads List.not_mem_nil) ?_ ?_
    · rintro mode' t (same | ⟨⟨e, failed⟩, -⟩)
      · cases same
        exact runs_pure rfl
      · cases failed
    · rintro e t (failed | ⟨-, faults⟩)
      · cases failed
      · exact absurd rfl faults
  exact reported

theorem reads_of_status (pinned : mode ≠ .notPinned)
    (reported : (status id s).1 = .ok (some mode)) : PinReads s id mode := by
  have known : Runs (status id) s fun r _ => r = .ok (some mode) → PinReads s id mode := by
    refine runs_bind (runs_pinOf? id s) ?_ fun e t _ failed => by cases failed
    rintro found t ⟨-, reads⟩
    cases found with
    | some mode' =>
      refine runs_pure fun same => ?_
      cases same
      exact reads mode rfl
    | none =>
      refine runs_bind (runs_contains id t) ?_ fun e u _ failed => by cases failed
      rintro there u -
      refine runs_pure fun same => ?_
      cases there <;> cases same
      exact absurd rfl pinned
  exact known reported

theorem status_calm_iff (pinned : mode ≠ .notPinned) :
    (status id s.calm).1 = .ok (some mode) ↔ PinReads s id mode :=
  ⟨reads_of_status (s := s.calm) pinned, status_calm_of_reads⟩

theorem pinDirectly_keeps (reads : PinReads s id .recursive) (trusted : s.Trusted) :
    Runs (pinDirectly id) s fun _ t => t.disk.pins = s.disk.pins := by
  refine runs_bind ((runs_pinOf? id s).and (runs_pinOf?_of_reads reads trusted)) ?_
    fun e t failed => failed.1.1.pins
  rintro mode t ⟨⟨quiet, -⟩, same | ⟨⟨e, failed⟩, -⟩⟩
  · cases same
    exact runs_pure quiet.pins
  · cases failed

/-- An object that is pinned recursively stays so when it is pinned directly. -/
theorem pinAsBytes_keeps (bytes : Bytes) (reads : PinReads s (.of .raw bytes) .recursive)
    (trusted : s.Trusted) :
    Runs (pinAsBytes bytes) s fun _ t => t.disk.pins = s.disk.pins := by
  refine runs_bind (runs_checkLimit bytes s) ?_ fun e t same => same ▸ rfl
  rintro ⟨⟩ t rfl
  refine runs_bind ((runs_addBlock _ bytes t).and (sweeping_addBlock _ bytes t)) ?_
    fun e u added => added.1.2.1
  rintro ⟨⟩ u ⟨⟨-, pins, -⟩, sweeps⟩
  have reads : PinReads u (.of .raw bytes) .recursive := by
    unfold PinReads
    rw [pins]
    exact reads
  have trusted : u.Trusted := fun fault => trusted (sweeps.spends.mem fault)
  refine runs_bind ((pinDirectly_keeps reads trusted).mono fun r v same => same.trans pins) ?_
    fun e v same => same
  exact fun _ v same => runs_pure same

theorem runs_pinAsBytes_reads (bytes : Bytes) (s : ObjectStore) :
    Runs (pinAsBytes bytes) s fun r t => ∀ id, r = .ok id → id = .of .raw bytes ∧
      (PinReads t id .direct ∨ PinReads t id .recursive ∧ PinReads s id .recursive) ∧
      (PinReads s id .recursive → s.Trusted → PinReads t id .recursive) := by
  -- the pin reads as it did where it was not set, and it is not set where it reads as recursive
  have keeps : Runs (pinAsBytes bytes) s fun _ t =>
      PinReads s (.of .raw bytes) .recursive → s.Trusted → t.disk.pins = s.disk.pins :=
    fun reads trusted => pinAsBytes_keeps bytes reads trusted
  refine ((runs_pinAsBytes bytes s).and keeps).mono ?_
  rintro r t ⟨⟨⟨e, rfl⟩, -⟩ | ⟨rfl, pinned, reads⟩, keeps⟩ id ok
  · cases ok
  cases ok
  refine ⟨rfl, ?_, fun recursive trusted => ?_⟩
  · rcases pinned.adds.pins.get? (.of .raw bytes) with same | ⟨mode, set, file⟩
    · refine reads.imp pinReads_of_file fun recursive => ⟨recursive, ?_⟩
      unfold PinReads at recursive ⊢
      rwa [← same]
    · cases List.mem_singleton.1 set
      exact .inl (pinReads_of_file file)
  · unfold PinReads
    rw [keeps recursive trusted]
    exact recursive

/-! ### Operations -/

inductive Operation where
  | pinAsNode (bytes : Bytes)
  | pinAsBytes (bytes : Bytes)
  | unpin (id : ContentId)
  | status (id : ContentId)
  | readNode (id : ContentId)
  | contains (id : ContentId)
  | fetch (id : ContentId)

namespace Operation

abbrev Result : Operation → Type
  | pinAsNode _ | pinAsBytes _ => ContentId
  | unpin _ => Unit
  | status _ => Option PinMode
  | readNode _ => Node
  | contains _ => Bool
  | fetch _ => Bytes

def op : (o : Operation) → Op o.Result
  | pinAsNode bytes => ObjectStore.pinAsNode bytes
  | pinAsBytes bytes => ObjectStore.pinAsBytes bytes
  | unpin id => ObjectStore.unpin id
  | status id => ObjectStore.status id
  | readNode id => ObjectStore.readNode id
  | contains id => ObjectStore.contains id
  | fetch id => ObjectStore.fetch id

/-- The id that it is about. -/
def target : Operation → ContentId
  | pinAsNode bytes => .of .node bytes
  | pinAsBytes bytes => .of .raw bytes
  | unpin id | status id | readNode id | contains id | fetch id => id

/-- The blocks that it may add. -/
def given (o : Operation) : List (ContentId × Bytes) :=
  match o with
  | pinAsNode bytes | pinAsBytes bytes => [(o.target, bytes)]
  | _ => []

/-- What it may do to the directories. -/
structure Bounded (o : Operation) (s : ObjectStore) (r : Except ObjectError o.Result)
    (t : ObjectStore) : Prop where
  blocks : s.disk.blocks.Differs (BlockAdded o.given) t.disk.blocks
  pins : s.disk.pins.Differs (fun id _ _ => id = o.target) t.disk.pins
  scratch : s.disk.scratch.Differs
    (fun _ _ new => new = none ∨ (∃ e, r = .error e) ∧ Faltered s t) t.disk.scratch
  failed : ∀ e, r = .error e → t.disk.pins = s.disk.pins

end Operation

open Operation (Bounded)

theorem bounded_of_quiet {o : Operation} {r : Except ObjectError o.Result} (quiet : Quiet s t)
    (sweeps : Sweeps s r t) : o.Bounded s r t where
  blocks := quiet.blocks ▸ .refl _ _
  pins := quiet.pins ▸ .refl _ _
  scratch := sweeps.scratch
  failed _ _ := quiet.pins

theorem bounded_of_refused {o : Operation} {bytes : Bytes} {r : Except ObjectError o.Result}
    (refused : Refused o.target bytes s t) (given : o.given = [(o.target, bytes)])
    (sweeps : Sweeps s r t) : o.Bounded s r t where
  blocks := given ▸ refused.adds.blocks
  pins := refused.pins ▸ .refl _ _
  scratch := sweeps.scratch
  failed _ _ := refused.pins

theorem bounded_of_pinned {o : Operation} {bytes : Bytes} {a : o.Result}
    (pinned : Pinned o.target bytes mode s t) (given : o.given = [(o.target, bytes)])
    (sweeps : Sweeps s (.ok a) t) : o.Bounded s (.ok a) t where
  blocks := given ▸ pinned.adds.blocks
  pins := by
    refine pinned.adds.pins.mono fun id _ _ ⟨_, set, _⟩ => ?_
    cases List.mem_singleton.1 set
    rfl
  scratch := sweeps.scratch
  failed _ failed := by cases failed

theorem runs_bounded (o : Operation) (s : ObjectStore) : Runs o.op s (o.Bounded s) := by
  cases o with
  | pinAsNode bytes =>
    refine ((runs_pinAsNode bytes s).and (sweeping_pinAsNode bytes s)).mono ?_
    rintro r t ⟨⟨-, ⟨-, refused⟩ | ⟨rfl, pinned, -⟩⟩, sweeps⟩
    · exact bounded_of_refused (o := .pinAsNode bytes) refused rfl sweeps
    · exact bounded_of_pinned (o := .pinAsNode bytes) pinned rfl sweeps
  | pinAsBytes bytes =>
    refine ((runs_pinAsBytes bytes s).and (sweeping_pinAsBytes bytes s)).mono ?_
    rintro r t ⟨⟨-, refused⟩ | ⟨rfl, pinned, -⟩, sweeps⟩
    · exact bounded_of_refused (o := .pinAsBytes bytes) refused rfl sweeps
    · exact bounded_of_pinned (o := .pinAsBytes bytes) pinned rfl sweeps
  | unpin id =>
    refine (((runs_unpin id s).and (runs_unpin_failed id s)).and (sweeping_unpin id s)).mono ?_
    rintro r t ⟨⟨⟨blocks, pins⟩, failed⟩, sweeps⟩
    exact ⟨blocks ▸ .refl _ _, pins.mono fun _ _ _ removed => removed.1, sweeps.scratch, failed⟩
  | status id => exact bounded_of_quiet (runs_status id s) (sweeping_status id s)
  | readNode id => exact bounded_of_quiet (runs_readNode id s).1 (sweeping_readNode id s)
  | contains id => exact bounded_of_quiet (runs_contains id s).1 (sweeping_contains id s)
  | fetch id => exact bounded_of_quiet (runs_fetch id s).1 (sweeping_fetch id s)

/-- Whatever stands in the directories and whichever file steps fail, an operation stays in its
bounds; and an object that is pinned is reported as pinned, by the mode it had before if that was
recursive. -/
theorem operations_bounded :
    (∀ (o : Operation) (s : ObjectStore), Runs o.op s (o.Bounded s)) ∧
    (∀ (bytes : Bytes) (s : ObjectStore), Runs (pinAsNode bytes) s fun r t => ∀ id, r = .ok id →
      id = .of .node bytes ∧ (status id t.calm).1 = .ok (some .recursive)) ∧
    ∀ (bytes : Bytes) (s : ObjectStore), Runs (pinAsBytes bytes) s fun r t => ∀ id, r = .ok id →
      id = .of .raw bytes ∧
      ((status id t.calm).1 = .ok (some .direct) ∨
        (status id t.calm).1 = .ok (some .recursive) ∧
          (status id s.calm).1 = .ok (some .recursive)) ∧
      ((status id s.calm).1 = .ok (some .recursive) → s.Trusted →
        (status id t.calm).1 = .ok (some .recursive)) := by
  refine ⟨runs_bounded, fun bytes s => ?_, fun bytes s => ?_⟩
  · refine (runs_pinAsNode bytes s).mono ?_
    rintro r t ⟨-, ⟨⟨e, rfl⟩, -⟩ | ⟨rfl, -, file⟩⟩ id ok
    · cases ok
    · cases ok
      exact ⟨rfl, status_calm_of_reads (pinReads_of_file file)⟩
  · refine (runs_pinAsBytes_reads bytes s).mono fun r t reads id ok => ?_
    have before : (status id s.calm).1 = .ok (some .recursive) ↔ PinReads s id .recursive :=
      status_calm_iff (by decide)
    obtain ⟨named, mode, recursive⟩ := reads id ok
    rw [before]
    exact ⟨named, mode.imp status_calm_of_reads (And.imp_left status_calm_of_reads),
      fun reads trusted => status_calm_of_reads (recursive reads trusted)⟩

/-! ### A store that someone has been at -/

/-- A directory stands in the place of a block that is pinned, and a file in scratch bears the next
name. -/
def tampered : ObjectStore :=
  let id := ContentId.of .raw [1]
  { disk := {
      blocks := .directory (Table.put ∅ id .directory)
      pins := .directory (Table.put ∅ id (.file PinMode.recursive.file))
      scratch := .directory (Table.put ∅ 0 (.file [9])) } }

/-- Its first file cannot be written. -/
def hindered : ObjectStore := tampered.disturbed [none, some .notADirectory]

theorem tampered_bounded :
    (status (.of .raw [1]) (pinAsBytes [1] tampered).2.calm).1 = .ok (some .recursive) ∧
      (status (.of .raw [2]) (pinAsBytes [2] tampered).2.calm).1 = .ok (some .direct) ∧
      (status (.of .node leafNode) (pinAsNode leafNode tampered).2.calm).1 =
        .ok (some .recursive) ∧
      (pinAsNode leafNode hindered).2.disk.pins = hindered.disk.pins := by
  obtain ⟨bounded, nodes, strings⟩ := operations_bounded
  have again : (pinAsBytes [1] tampered).1 = .ok (.of .raw [1]) :=
    toOption_eq_some_iff.1 (by decide +kernel)
  have before : (status (.of .raw [1]) tampered.calm).1 = .ok (some .recursive) :=
    toOption_eq_some_iff.1 (by decide +kernel)
  have new : (pinAsBytes [2] tampered).1 = .ok (.of .raw [2]) :=
    toOption_eq_some_iff.1 (by decide +kernel)
  have unknown : (status (.of .raw [2]) tampered.calm).1 ≠ .ok (some .recursive) :=
    fun same => absurd (toOption_eq_some_iff.2 same) (by decide +kernel)
  have node : (pinAsNode leafNode tampered).1 = .ok (.of .node leafNode) :=
    toOption_eq_some_iff.1 (by decide +kernel)
  have fails : (pinAsNode leafNode hindered).1.toOption = none := by decide +kernel
  refine ⟨(strings _ _ _ again).2.2 before List.not_mem_nil,
    (strings _ _ _ new).2.1.resolve_right fun recursive => unknown recursive.2,
    (nodes _ _ _ node).2, ?_⟩
  cases ran : (pinAsNode leafNode hindered).1 with
  | ok id =>
    rw [ran] at fails
    cases fails
  | error e => exact (bounded (.pinAsNode leafNode) hindered).failed e ran

end Relay.ObjectStore
