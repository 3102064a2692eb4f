import Relay.Content.ObjectStore

/-!
# What operations leave as it is

`Keeps view op` says that an operation leaves a view of the store as it is, whether it succeeds
or not. It holds of a sequence if it holds of its parts. Looking up and reading keep the blocks.
-/

namespace Relay

namespace Disk

/-- A step that only reads keeps all but the script of faults. -/
theorem blocks_step_read {α : Type} (f : Disk → Except IoError α) (d : Disk) :
    (step (fun d => (f d).map (·, d)) d).2.blocks = d.blocks := by
  unfold step
  split
  · rfl
  · simp only
    split
    · next h =>
      cases hf : f { d with faults := d.faults.tail } with
      | error e => simp [hf, Except.map] at h
      | ok a =>
        simp only [hf, Except.map, Except.ok.injEq, Prod.mk.injEq] at h
        exact h.2 ▸ rfl
    · rfl

end Disk

namespace ObjectStore

variable {α β γ : Type}

def Keeps (view : ObjectStore → γ) (op : Op α) : Prop := ∀ s, view (op s).2 = view s

theorem keeps_pure (view : ObjectStore → γ) (a : α) : Keeps view (pure a : Op α) := fun _ => rfl

theorem keeps_throw (view : ObjectStore → γ) (e : ObjectError) :
    Keeps view (throw e : Op α) := fun _ => rfl

theorem keeps_bind {view : ObjectStore → γ} {op : Op α} {next : α → Op β}
    (h : Keeps view op) (hn : ∀ a, Keeps view (next a)) : Keeps view (op >>= next) := by
  intro s
  have ho := h s
  simp only [bind, ExceptT.bind, ExceptT.mk, StateT.bind]
  cases hs : op s with
  | mk r t =>
    rw [hs] at ho
    cases r with
    | ok a => exact (hn a t).trans ho
    | error e => exact ho

theorem keeps_attempt {view : ObjectStore → γ} {access : Disk.Access α}
    (h : ∀ s : ObjectStore, view { s with disk := (access s.disk).2 } = view s) :
    Keeps view (attempt access) := h

theorem keeps_io {view : ObjectStore → γ} {access : Disk.Access α}
    (h : ∀ s : ObjectStore, view { s with disk := (access s.disk).2 } = view s) :
    Keeps view (io access) :=
  keeps_bind (keeps_attempt h) fun r => by
    cases r with
    | ok a => exact keeps_pure view a
    | error e => exact keeps_throw view _

/-- A sequence succeeds if its parts do. -/
theorem bind_eq_ok_iff {op : Op α} {next : α → Op β} {s t : ObjectStore} {b : β} :
    (op >>= next) s = (.ok b, t) ↔ ∃ a u, op s = (.ok a, u) ∧ next a u = (.ok b, t) := by
  simp only [bind, ExceptT.bind, ExceptT.mk, StateT.bind]
  cases hs : op s with
  | mk r u =>
    cases r with
    | ok a =>
      constructor
      · intro h; exact ⟨a, u, rfl, h⟩
      · rintro ⟨_, _, ⟨⟩, h⟩; exact h
    | error e =>
      constructor
      · intro h; cases h
      · rintro ⟨_, _, h, _⟩; cases h

/-! ### Blocks -/

/-- The ids of all blocks. -/
def blockIds (s : ObjectStore) : List ContentId := s.disk.blocks.keys

theorem keeps_blockIds_read {f : Disk → Except IoError α} (s : ObjectStore) :
    blockIds { s with disk := (Disk.step (fun d => (f d).map (·, d)) s.disk).2 } = s.blockIds := by
  simp only [blockIds, Disk.blocks_step_read]

theorem keeps_blockIds_contains (id : ContentId) : Keeps blockIds (contains id) :=
  keeps_io keeps_blockIds_read

theorem keeps_blockIds_fetch (id : ContentId) : Keeps blockIds (fetch id) := by
  refine keeps_bind (keeps_attempt keeps_blockIds_read) fun r => ?_
  cases r with
  | ok bytes => exact keeps_pure _ _
  | error e => cases e <;> exact keeps_throw _ _

theorem keeps_blockIds_readNode (id : ContentId) : Keeps blockIds (readNode id) := by
  unfold readNode
  split
  case' isTrue => refine keeps_bind (keeps_throw _ _) fun _ => ?_
  all_goals
    refine keeps_bind (keeps_blockIds_fetch id) fun bytes => ?_
    cases Node.ofBytes bytes with
    | ok node => exact keeps_pure _ _
    | error fault => exact keeps_throw _ _

theorem io_apply (access : Disk.Access α) (s : ObjectStore) :
    io access s = ((access s.disk).1.mapError .io, { s with disk := (access s.disk).2 }) := by
  simp only [io, attempt, bind, ExceptT.bind, ExceptT.mk, StateT.bind, ExceptT.run, StateT.run]
  cases h : access s.disk with
  | mk r d => cases r <;> rfl

theorem mem_blockIds_of_contains {id : ContentId} {s : ObjectStore}
    (h : (contains id s).1 = .ok true) : id ∈ s.blockIds := by
  rw [contains, io_apply] at h
  have found : (Disk.blockExists id s.disk).1 = .ok true := by
    cases looked : (Disk.blockExists id s.disk).1 with
    | ok b => rw [looked] at h; cases h; rfl
    | error e => rw [looked] at h; cases h
  simp only [Disk.blockExists, Disk.step] at found
  split at found
  · cases found
  · simp only [Area.contains] at found
    cases hb : s.disk.blocks with
    | missing => simp [hb, Except.map] at found
    | plainFile => simp [hb, Except.map] at found
    | directory entries =>
      simp only [hb, Except.map, Except.ok.injEq] at found
      simp only [blockIds, hb, Area.keys]
      refine Classical.byContradiction fun hn => ?_
      have := (Table.get?_eq_none_iff entries id).2 hn
      simp [Table.contains, this] at found

end ObjectStore

end Relay
