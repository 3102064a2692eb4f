import Relay.Proofs.Content.Pins
import Relay.Proofs.Content.Rest

/-!
# Stores that nothing is in the way of

A store is healthy if its directories are there, what the store looks for in them are files, pins
can be read, and no file step is going to fail. What the files of the blocks hold is of no
importance, nor is what was left in scratch. A healthy store takes every object that it is for
(`ObjectStore.Healthy.runs_pin`), and it is healthy again afterwards.
-/

namespace Relay.ObjectStore

open Disk

variable {s t u : ObjectStore} {id : ContentId} {bytes : Bytes} {codec : Codec}

structure Healthy (s : ObjectStore) : Prop where
  place (p : Place) : (p.area s.disk).IsDirectory
  file (p : Place) (id : ContentId) : (p.area s.disk).get? id ≠ some .directory
  scratch : s.disk.scratch.IsDirectory
  free (name : Nat) (new : s.nextScratch ≤ name) : s.disk.scratch.get? name ≠ some .directory
  /-- A raw object that is pinned recursively would stay so. -/
  reads (id : ContentId) (there : s.disk.pins.get? id ≠ none) :
    ∃ mode, PinReads s id mode ∧ (id.codec = .raw → mode ≠ .recursive)
  still : s.disk.faults = []

theorem AtRest.healthy (h : s.AtRest) : s.Healthy where
  place := h.place
  file := h.file
  scratch := h.tidy.scratch
  free := by
    intro name new
    rw [h.tidy.fresh name new]
    simp
  reads := by
    intro id there
    obtain ⟨S, sound⟩ := h.sound
    refine ⟨id.codec.pinMode, (pinReads_iff sound there _).2 rfl, fun raw => ?_⟩
    rw [raw]
    decide
  still := h.still

namespace Healthy

theorem trusted (h : s.Healthy) : s.Trusted := by
  rw [Trusted, h.still]
  exact List.not_mem_nil

theorem spared (h : s.Healthy) (n : Nat) : s.Spared n := by
  intro e mem
  rw [h.still, List.take_nil] at mem
  cases mem

theorem past_eq (h : s.Healthy) (n : Nat) : s.past n = s := by
  have none : s.disk.faults.drop n = s.disk.faults := by rw [h.still, List.drop_nil]
  rw [ObjectStore.past, Disk.past, none]

theorem calm_eq (h : s.Healthy) : s.calm = s := by
  rw [calm, disturbed, ← h.still]

theorem not_unreadable (h : s.Healthy) (id : ContentId) : ¬s.Unreadable id := by
  rintro ⟨there, unread⟩
  by_cases free : s.disk.pins.get? id = none
  · exact there ((h.place .pins).read_of_free free)
  · obtain ⟨mode, reads, -⟩ := h.reads id free
    exact unread mode reads

theorem not_recursive (h : s.Healthy) (raw : id.codec = .raw) : ¬PinReads s id .recursive := by
  intro recursive
  have there : s.disk.pins.get? id ≠ none := fun free => not_pinReads_of_free free _ recursive
  obtain ⟨mode, reads, other⟩ := h.reads id there
  exact other raw (reads.unique recursive)

/-- Blocks that are added and pins that are set leave a store healthy. -/
theorem adds {bs : List (ContentId × Bytes)} {ps : List (ContentId × PinMode)} (h : s.Healthy)
    (adds : Adds bs ps s t) (set : ∀ id mode, (id, mode) ∈ ps → id.codec = .raw →
      mode ≠ .recursive) : t.Healthy where
  place := by
    intro p
    cases p with
    | blocks => exact adds.blocks.isDirectory (h.place .blocks)
    | pins => exact adds.pins.isDirectory (h.place .pins)
  file := by
    intro p id
    cases p with
    | blocks =>
      rcases adds.blocks.get? id with same | ⟨-, bytes, -, new⟩
      · exact fun there => h.file .blocks id (same ▸ there)
      · exact fun there => by cases new.symm.trans there
    | pins =>
      rcases adds.pins.get? id with same | ⟨mode, -, new⟩
      · exact fun there => h.file .pins id (same ▸ there)
      · exact fun there => by cases new.symm.trans there
  scratch := adds.scratch.isDirectory h.scratch
  free := by
    intro name new
    rcases (adds.clean h.still).2 name with same | gone
    · rw [same]
      exact h.free name (Nat.le_trans adds.names new)
    · rw [gone]
      simp
  reads := by
    intro id there
    rcases adds.pins.get? id with same | ⟨mode, mem, new⟩
    · obtain ⟨mode, reads, other⟩ := h.reads id (same ▸ there)
      exact ⟨mode, (pinReads_congr same mode).2 reads, other⟩
    · exact ⟨mode, pinReads_of_file new, set id mode mem⟩
  still := (adds.clean h.still).1

/-! ### Operations succeed -/

theorem writeFile_ok (h : s.Healthy) (p : Place) (id : ContentId) (bytes : Bytes) :
    Runs (writeFile bytes (p.move id)) s fun r _ => r = .ok () := by
  obtain ⟨left, -, filed⟩ := filed_of_still bytes h.still h.scratch
    (h.free s.nextScratch (Nat.le_refl _)) (h.place p) (h.file p id)
  have moved : Runs (do writeScratch s.nextScratch bytes; p.move id s.nextScratch) s.disk
      fun r _ => r = .ok () := by
    rw [Runs, filed]
  unfold writeFile
  refine runs_get_bind (runs_modify_bind ?_)
  refine runs_attempt_bind moved ?_
  rintro r d rfl
  exact runs_pure rfl

theorem addBlock_ok (h : s.Healthy) (id : ContentId) (bytes : Bytes) :
    Runs (addBlock id bytes) s fun r t => r = .ok () ∧ t.Healthy := by
  have readable : s.disk.blocks ≠ .plainFile := by
    obtain ⟨entries, blocks⟩ := h.place .blocks
    exact fun plain => by cases blocks.symm.trans plain
  have succeeds : Runs (addBlock id bytes) s fun r _ => r = .ok () := by
    unfold addBlock
    refine runs_bind (looks_contains readable id) ?_ ?_
    · rintro found t ⟨rfl, -⟩
      rw [h.past_eq]
      cases found with
      | true => exact runs_pure rfl
      | false => exact h.writeFile_ok .blocks id bytes
    · rintro e t ⟨-, ⟨⟨found, ok⟩, -⟩ | ⟨-, fails⟩⟩
      · cases ok
      · exact absurd (h.spared 1) fails
  exact ⟨succeeds, h.adds (runs_addBlock id bytes s).1 fun _ _ mem => by cases mem⟩

theorem writePin_ok (h : s.Healthy) (id : ContentId) (mode : PinMode) :
    Runs (writePin id mode) s fun r _ => r = .ok () := h.writeFile_ok .pins id mode.file

theorem pinDirectly_ok (h : s.Healthy) (id : ContentId) :
    Runs (pinDirectly id) s fun r _ => r = .ok () := by
  unfold pinDirectly
  refine runs_bind (found_pinOf? h.trusted id) ?_ ?_
  · rintro mode t ⟨rfl, -⟩
    rw [h.past_eq]
    split
    · exact h.writePin_ok id .direct
    · exact runs_pure rfl
  · rintro e t ⟨-, found⟩
    cases found with
    | failed _ why =>
      rcases why with unreadable | fails
      · exact absurd unreadable (h.not_unreadable id)
      · exact absurd (h.spared 1) fails

theorem checkLimit_ok (fits : bytes.length ≤ s.limit) :
    Runs (checkLimit bytes) s fun r t => r = .ok () ∧ t = s := by
  rw [Runs, checkLimit_eq, if_pos fits]
  exact ⟨rfl, rfl⟩

theorem pin_ok (h : s.Healthy) (takes : s.Takes codec bytes) :
    Runs (Act.pin codec bytes).op s fun r _ => r = .ok (.of codec bytes) := by
  have passes := checkLimit_ok takes.fits
  cases codec with
  | node =>
    obtain ⟨node, decoded⟩ := takes.decodes rfl
    refine runs_bind_ok passes ?_
    rintro _ rfl
    rw [decoded]
    refine runs_bind_ok (h.addBlock_ok _ bytes) fun t healthy => ?_
    refine runs_bind_ok (Runs.and (healthy.writePin_ok _ .recursive) trivial) fun u _ => ?_
    exact runs_pure rfl
  | raw =>
    refine runs_bind_ok passes ?_
    rintro _ rfl
    refine runs_bind_ok (h.addBlock_ok _ bytes) fun t healthy => ?_
    refine runs_bind_ok (Runs.and (healthy.pinDirectly_ok _) trivial) fun u _ => ?_
    exact runs_pure rfl

/-- An object that the store is for is stored and pinned. -/
theorem runs_pin (h : s.Healthy) (takes : s.Takes codec bytes) :
    Runs (Act.pin codec bytes).op s fun r t => r = .ok (.of codec bytes) ∧ t.Healthy ∧
      Pinned (.of codec bytes) bytes codec.pinMode s t ∧
      PinReads t (.of codec bytes) codec.pinMode := by
  have ok := h.pin_ok takes
  have reads : Runs (Act.pin codec bytes).op s _ := pinned_by_codec fun _ => h.not_recursive rfl
  have pinned : Runs (Act.pin codec bytes).op s fun r t => r = .ok (.of codec bytes) →
      Pinned (.of codec bytes) bytes codec.pinMode s t := by
    cases codec with
    | node =>
      refine (runs_pinAsNode bytes s).mono ?_
      rintro r t ⟨-, ⟨⟨e, rfl⟩, -⟩ | ⟨-, pinned, -⟩⟩ ok
      · cases ok
      · exact pinned
    | raw =>
      refine (runs_pinAsBytes bytes s).mono ?_
      rintro r t (⟨⟨e, rfl⟩, -⟩ | ⟨-, pinned, -⟩) ok
      · cases ok
      · exact pinned
  refine (ok.and (pinned.and reads)).mono ?_
  rintro r t ⟨rfl, pinned, reads⟩
  refine ⟨rfl, h.adds (pinned rfl).adds ?_, pinned rfl, (reads _ rfl).2⟩
  intro id mode mem raw
  cases List.mem_singleton.1 mem
  rw [show codec = .raw from raw]
  decide

end Healthy

/-! ### What has been stored -/

/-- The objects are there, each with the pin of its codec, and nothing else has changed but
scratch. -/
structure Stocked (objects : List (ContentId × Bytes)) (s t : ObjectStore) : Prop where
  adds : Adds objects (objects.map fun o => (o.1, o.1.codec.pinMode)) s t
  present : ∀ o ∈ objects, t.disk.blocks.get? o.1 ≠ none
  pinned : ∀ o ∈ objects, PinReads t o.1 o.1.codec.pinMode

theorem Stocked.refl (s : ObjectStore) : Stocked [] s s :=
  ⟨.refl _ _ s, List.forall_mem_nil _, List.forall_mem_nil _⟩

theorem Stocked.of_pinned (pinned : Pinned (.of codec bytes) bytes codec.pinMode s t)
    (reads : PinReads t (.of codec bytes) codec.pinMode) :
    Stocked [(.of codec bytes, bytes)] s t where
  adds := pinned.adds
  present := by
    intro o mem
    rw [List.mem_singleton.1 mem]
    exact pinned.present
  pinned := by
    intro o mem
    rw [List.mem_singleton.1 mem]
    exact reads

/-- What is stored later takes nothing from what is there. -/
theorem Stocked.append {objects more : List (ContentId × Bytes)} (h : Stocked objects s t)
    (h' : Stocked more t u) : Stocked (objects ++ more) s u where
  adds := by
    rw [List.map_append]
    exact h.adds.append h'.adds
  present := by
    intro o mem
    rcases List.mem_append.1 mem with mem | mem
    · obtain ⟨e, there⟩ := Option.ne_none_iff_exists'.1 (h.present o mem)
      rw [h'.adds.block_stays there]
      simp
    · exact h'.present o mem
  pinned := by
    intro o mem
    rcases List.mem_append.1 mem with mem | mem
    · rcases h'.adds.pins.get? o.1 with same | ⟨mode, set, new⟩
      · exact (pinReads_congr same _).2 (h.pinned o mem)
      · obtain ⟨o', -, same⟩ := List.mem_map.1 set
        obtain ⟨named, rfl⟩ := Prod.mk.inj same
        rw [← named] at new ⊢
        exact pinReads_of_file new
    · exact h'.pinned o mem

end Relay.ObjectStore
