import Relay.Proofs.Content.Durability

/-!
# Directories that stay in place

A store is tidy if its three directories are there and no scratch file bears a name that is still
to be used. Whatever an operation stores, pins or unpins, and whichever file steps fail, it leaves
a tidy store tidy (`Tidy.act`): a scratch file that is left behind bears a name that is used up.
-/

namespace Relay

namespace Area

variable {κ : Type} [DecidableEq κ] {a b : Area κ} {change : Change κ}

def IsDirectory (a : Area κ) : Prop := ∃ entries, a = .directory entries

theorem Differs.isDirectory (h : a.Differs change b) (there : a.IsDirectory) : b.IsDirectory := by
  obtain ⟨entries, rfl⟩ := there
  cases b with
  | directory after => exact ⟨after, rfl⟩
  | _ => cases h

end Area

namespace ObjectStore

open Disk

/-- No scratch file bears a name that is still to be used. -/
def Fresh (s : ObjectStore) : Prop :=
  ∀ name, s.nextScratch ≤ name → s.disk.scratch.get? name = none

structure Tidy (s : ObjectStore) : Prop where
  blocks : s.disk.blocks.IsDirectory
  pins : s.disk.pins.IsDirectory
  scratch : s.disk.scratch.IsDirectory
  fresh : s.Fresh

variable {s t : ObjectStore}

/-! ### Names of scratch files -/

theorem Fresh.quiet (h : s.Fresh) (quiet : Quiet s t) : t.Fresh := by
  obtain ⟨⟨faults, rfl⟩, -⟩ := quiet
  exact h

/-- A name is used up as soon as a file may be written under it. -/
theorem Fresh.touched (h : s.Fresh) {d : Disk}
    (touched : s.disk.scratch.Differs (fun name _ _ => name = s.nextScratch) d.scratch) :
    ({ s with disk := d, nextScratch := s.nextScratch + 1 } : ObjectStore).Fresh := by
  intro name later
  have later : s.nextScratch + 1 ≤ name := later
  rcases touched.get? name with same | rfl
  · exact same.trans (h name (Nat.le_of_succ_le later))
  · exact absurd later (Nat.not_succ_le_self _)

theorem fresh_writeFile (h : s.Fresh) (p : Place) (id : ContentId) (bytes : Bytes) :
    Runs (writeFile bytes (p.move id)) s fun _ t => t.Fresh := by
  unfold writeFile
  refine runs_get_bind (runs_modify_bind ?_)
  refine runs_attempt_bind (runs_file p s.nextScratch id bytes s.disk) ?_
  rintro r d ⟨-, touches⟩
  cases r with
  | ok done => exact runs_pure (h.touched touches.scratch)
  | error e =>
    refine runs_attempt_bind (runs_removeScratch s.nextScratch d) ?_
    rintro r' d' ⟨-, -, -, removed⟩
    have named : d.scratch.Differs (fun name _ _ => name = s.nextScratch) d'.scratch := by
      rcases removed with ⟨same, -⟩ | removed
      · rw [same]
        exact .refl _ _
      · exact (Area.remove_eq_ok removed).1.mono fun _ _ _ h => h.1
    exact runs_throw (h.touched (touches.scratch.trans named fun _ _ _ _ same _ => same))

theorem fresh_addBlock (h : s.Fresh) (id : ContentId) (bytes : Bytes) :
    Runs (addBlock id bytes) s fun _ t => t.Fresh := by
  unfold addBlock
  refine runs_bind (runs_contains id s) ?_ fun e t ran => h.quiet ran.1
  rintro found t ⟨quiet, -⟩
  cases found with
  | true => exact runs_pure (h.quiet quiet)
  | false => exact fresh_writeFile (h.quiet quiet) .blocks id bytes

theorem fresh_writePin (h : s.Fresh) (id : ContentId) (mode : PinMode) :
    Runs (writePin id mode) s fun _ t => t.Fresh := fresh_writeFile h .pins id mode.file

theorem fresh_pinDirectly (h : s.Fresh) (id : ContentId) :
    Runs (pinDirectly id) s fun _ t => t.Fresh := by
  unfold pinDirectly
  refine runs_bind (runs_pinOf? id s) ?_ fun e t ran => h.quiet ran.1
  rintro mode t ⟨quiet, -⟩
  split
  · exact fresh_writePin (h.quiet quiet) id .direct
  · exact runs_pure (h.quiet quiet)

theorem fresh_pinAsNode (h : s.Fresh) (bytes : Bytes) :
    Runs (pinAsNode bytes) s fun _ t => t.Fresh := by
  unfold pinAsNode
  refine runs_bind (runs_checkLimit bytes s) ?_ fun e t same => same ▸ h
  rintro ⟨⟩ t rfl
  cases Node.ofBytes bytes with
  | error fault => exact runs_throw h
  | ok node =>
    refine runs_bind (fresh_addBlock h _ bytes) ?_ fun e t ran => ran
    intro _ t added
    exact runs_bind (fresh_writePin added _ .recursive) (fun _ _ ran => ran) fun _ _ ran => ran

theorem fresh_pinAsBytes (h : s.Fresh) (bytes : Bytes) :
    Runs (pinAsBytes bytes) s fun _ t => t.Fresh := by
  unfold pinAsBytes
  refine runs_bind (runs_checkLimit bytes s) ?_ fun e t same => same ▸ h
  rintro ⟨⟩ t rfl
  refine runs_bind (fresh_addBlock h _ bytes) ?_ fun e t ran => ran
  intro _ t added
  exact runs_bind (fresh_pinDirectly added _) (fun _ _ ran => ran) fun _ _ ran => ran

theorem scratch_unpin (id : ContentId) (s : ObjectStore) :
    Runs (ObjectStore.unpin id) s fun _ t =>
      t.disk.scratch = s.disk.scratch ∧ t.nextScratch = s.nextScratch := by
  unfold ObjectStore.unpin
  refine runs_attempt_bind (runs_removePin id s.disk) ?_
  rintro r d ⟨-, same, -⟩
  cases r with
  | ok a => exact runs_pure ⟨same, rfl⟩
  | error e => cases e <;> exact ⟨same, rfl⟩

/-! ### Operations on a tidy store -/

theorem Tidy.quiet (h : s.Tidy) (quiet : Quiet s t) : t.Tidy := by
  obtain ⟨⟨faults, rfl⟩, -⟩ := quiet
  exact ⟨h.blocks, h.pins, h.scratch, h.fresh⟩

theorem Tidy.adds {bs : List (ContentId × Bytes)} {ps : List (ContentId × PinMode)} (h : s.Tidy)
    (adds : Adds bs ps s t) (fresh : t.Fresh) : t.Tidy :=
  ⟨adds.blocks.isDirectory h.blocks, adds.pins.isDirectory h.pins,
    adds.scratch.isDirectory h.scratch, fresh⟩

theorem Tidy.act (h : s.Tidy) (a : Act) : (a.op s).2.Tidy := by
  cases a with
  | pin codec bytes =>
    cases codec with
    | node =>
      have fresh := fresh_pinAsNode h.fresh bytes
      obtain ⟨-, ⟨-, refused⟩ | ⟨-, pinned, -⟩⟩ := runs_pinAsNode bytes s
      · exact h.adds refused.adds fresh
      · exact h.adds pinned.adds fresh
    | raw =>
      have fresh := fresh_pinAsBytes h.fresh bytes
      obtain ⟨-, refused⟩ | ⟨-, pinned, -⟩ := runs_pinAsBytes bytes s
      · exact h.adds refused.adds fresh
      · exact h.adds pinned.adds fresh
  | unpin id =>
    have unpins : Runs (ObjectStore.unpin id) s fun _ t => t.Tidy := by
      obtain ⟨blocks, pins⟩ := runs_unpin id s
      obtain ⟨scratch, names⟩ := scratch_unpin id s
      refine ⟨blocks ▸ h.blocks, pins.isDirectory h.pins, scratch ▸ h.scratch, ?_⟩
      intro name later
      rw [scratch]
      rw [names] at later
      exact h.fresh name later
    have kept : Runs (Act.op (.unpin id)) s fun _ t => t.Tidy :=
      runs_bind unpins (fun _ _ tidy => tidy) fun _ _ tidy => tidy
    exact kept

theorem tidy_empty (limit : Nat) : (empty limit).Tidy :=
  ⟨⟨_, rfl⟩, ⟨_, rfl⟩, ⟨_, rfl⟩, fun _ _ => rfl⟩

end ObjectStore

end Relay
