import Relay.Proofs.Content.Runs

/-!
# Writing files

A file is written in scratch and moved into place. Either it stands there as a whole or nothing
has changed but scratch, where a file is left behind only if a file step failed by itself.
-/

namespace Relay

namespace Disk

variable {d d' : Disk}

structure Touches (name : Nat) (d d' : Disk) : Prop where
  scratch : d.scratch.Differs (fun k _ _ => k = name) d'.scratch
  faults : d.faults = [] → d'.faults = []

theorem touches_refl (name : Nat) (d : Disk) : Touches name d { d with faults := d.faults.tail } :=
  ⟨.refl _ _, fun none => by rw [none]; rfl⟩

theorem touches_write {name : Nat} {bytes : Bytes} {scratch : Area Nat}
    (written : d.scratch.write name bytes = .ok scratch) :
    Touches name d { d with scratch, faults := d.faults.tail } :=
  ⟨(Area.write_eq_ok written).1.mono fun _ _ _ h => h.1, fun none => by rw [none]; rfl⟩

theorem Touches.trans {name : Nat} {d'' : Disk} (h : Touches name d d') (h' : Touches name d' d'') :
    Touches name d d'' :=
  ⟨h.scratch.trans h'.scratch fun _ _ _ _ same _ => same, fun none => h'.faults (h.faults none)⟩

/-- What writing a file and moving it into place comes to. -/
inductive Filed (p : Place) (name : Nat) (id : ContentId) (bytes : Bytes) (d : Disk) :
    Except IoError Unit → Disk → Prop
  | unwritten {d' : Disk} (e : IoError) (same : d'.scratch = d.scratch)
      (areas : ∀ q : Place, q.area d' = q.area d) : Filed p name id bytes d (.error e) d'
  | unmoved {d' : Disk} (e : IoError) (written : d'.scratch.get? name = some (.file bytes))
      (areas : ∀ q : Place, q.area d' = q.area d) : Filed p name id bytes d (.error e) d'
  | moved {d' : Disk} (placed : (p.area d).write id bytes = .ok (p.area d'))
      (gone : d'.scratch.get? name = none) (other : p.other.area d' = p.other.area d) :
      Filed p name id bytes d (.ok ()) d'

theorem runs_file (p : Place) (name : Nat) (id : ContentId) (bytes : Bytes) (d : Disk) :
    Runs (do writeScratch name bytes; p.move id name) d fun r d' =>
      Filed p name id bytes d r d' ∧ Touches name d d' := by
  refine runs_bind (runs_writeScratch name bytes d) ?_ ?_
  · rintro ⟨⟩ d₁ (⟨e, failed, -⟩ | ⟨-, scratch, written, rfl⟩)
    · cases failed
    have file := (Area.write_eq_ok written).2
    have touches := touches_write written
    refine (runs_move p name id _).mono ?_
    rintro r d₂ (⟨e, rfl, rfl⟩ | ⟨bytes', rfl, read, placed, removed, other, faults⟩)
    · refine ⟨.unmoved e file fun q => ?_, touches.trans (touches_refl name _)⟩
      cases q <;> rfl
    · have same : bytes' = bytes := by
        rw [Area.read_eq_ok_iff, file] at read
        cases read
        rfl
      subst same
      obtain ⟨differs, gone⟩ := Area.remove_eq_ok removed
      refine ⟨.moved ?_ gone ?_, touches.trans ⟨differs.mono fun _ _ _ h => h.1, ?_⟩⟩
      · cases p <;> exact placed
      · rw [other]
        cases p <;> rfl
      · intro none
        rw [faults, none]
        rfl
  · rintro e d₁ (⟨e', failed, rfl⟩ | ⟨failed, -⟩)
    · refine ⟨.unwritten e rfl fun q => ?_, touches_refl name d⟩
      cases q <;> rfl
    · cases failed

end Disk

namespace ObjectStore

open Disk

/-! ### Scratch files -/

/-- Nothing but scratch files of new names has changed, and none is left behind unless file steps
fail by themselves. -/
structure Scribbles (s t : ObjectStore) : Prop where
  limit : t.limit = s.limit
  names : s.nextScratch ≤ t.nextScratch
  scratch : s.disk.scratch.Differs (fun name _ _ => s.nextScratch ≤ name) t.disk.scratch
  clean : s.disk.faults = [] → t.disk.faults = [] ∧ ∀ name,
    t.disk.scratch.get? name = s.disk.scratch.get? name ∨ t.disk.scratch.get? name = none

variable {s t u : ObjectStore}

theorem Scribbles.refl (s : ObjectStore) : Scribbles s s :=
  ⟨rfl, Nat.le_refl _, .refl _ _, fun none => ⟨none, fun _ => .inl rfl⟩⟩

theorem Scribbles.trans (h : Scribbles s t) (h' : Scribbles t u) : Scribbles s u where
  limit := h'.limit.trans h.limit
  names := Nat.le_trans h.names h'.names
  scratch := h.scratch.trans (h'.scratch.mono fun _ _ _ new => Nat.le_trans h.names new)
    fun _ _ _ _ new _ => new
  clean := by
    intro none
    obtain ⟨none', first⟩ := h.clean none
    obtain ⟨none'', second⟩ := h'.clean none'
    refine ⟨none'', fun name => ?_⟩
    rcases second name with same | gone
    · rw [same]
      exact first name
    · exact .inr gone

/-! ### Writing a file -/

theorem runs_attempt_bind {α β : Type} {access : Access α} {next : Except IoError α → Op β}
    {post : Except IoError α → Disk → Prop} {after : Except ObjectError β → ObjectStore → Prop}
    (first : Runs access s.disk post)
    (rest : ∀ r d, post r d → Runs (next r) { s with disk := d } after) :
    Runs (attempt access >>= next) s after := rest _ _ first

/-- A file that was not moved is removed from scratch. -/
theorem scribbles_cleanup {d d' : Disk} (touches : Touches s.nextScratch s.disk d)
    (left : d.scratch = s.disk.scratch ∨
      ∃ bytes, d.scratch.get? s.nextScratch = some (.file bytes))
    (faults : d'.faults = d.faults.tail)
    (removed : d'.scratch = d.scratch ∧
        (∃ e, d.faults = some e :: d'.faults ∨ d.scratch.remove s.nextScratch = .error e) ∨
      d.scratch.remove s.nextScratch = .ok d'.scratch) :
    Scribbles s { s with disk := d', nextScratch := s.nextScratch + 1 } := by
  -- both the writing and the removal touch no scratch file but the named one
  have named : d.scratch.Differs (fun k _ _ => k = s.nextScratch) d'.scratch := by
    rcases removed with ⟨same, _⟩ | removed
    · rw [same]
      exact .refl _ _
    · exact (Area.remove_eq_ok removed).1.mono fun _ _ _ h => h.1
  have all := touches.scratch.trans named fun _ _ _ _ same _ => same
  refine ⟨rfl, Nat.le_succ _, all.mono fun _ _ _ same => Nat.le_of_eq same.symm, fun none => ?_⟩
  have none' := touches.faults none
  refine ⟨by rw [faults, none']; rfl, fun name => ?_⟩
  rcases all.get? name with same | rfl
  · exact .inl same
  · rcases removed with ⟨same, stuck⟩ | removed
    · rcases left with unchanged | ⟨bytes, file⟩
      · rw [same, unchanged]
        exact .inl rfl
      · obtain ⟨e, script | failed⟩ := stuck
        · rw [none'] at script
          cases script
        · obtain ⟨b, succeeded⟩ := Area.remove_of_file file
          rw [failed] at succeeded
          cases succeeded
    · exact .inr (Area.remove_eq_ok removed).2

theorem scribbles_moved {d : Disk} (touches : Touches s.nextScratch s.disk d)
    (gone : d.scratch.get? s.nextScratch = none) :
    Scribbles s { s with disk := d, nextScratch := s.nextScratch + 1 } := by
  refine ⟨rfl, Nat.le_succ _, touches.scratch.mono fun _ _ _ same => Nat.le_of_eq same.symm,
    fun none => ⟨touches.faults none, fun name => ?_⟩⟩
  rcases touches.scratch.get? name with same | rfl
  · exact .inl same
  · exact .inr gone

/-- A file stands in its place, or the place is as it was. -/
structure Placing (p : Place) (id : ContentId) (bytes : Bytes) (s : ObjectStore)
    (r : Except ObjectError Unit) (t : ObjectStore) : Prop where
  scribbles : Scribbles s t
  other : p.other.area t.disk = p.other.area s.disk
  placed : r = .ok () ∧ (p.area s.disk).write id bytes = .ok (p.area t.disk) ∨
    (∃ e, r = .error e) ∧ p.area t.disk = p.area s.disk

theorem runs_cleanup (p : Place) (id : ContentId) (bytes : Bytes) {d : Disk} (e : IoError)
    (touches : Touches s.nextScratch s.disk d) (areas : ∀ q : Place, q.area d = q.area s.disk)
    (left : d.scratch = s.disk.scratch ∨
      ∃ bytes, d.scratch.get? s.nextScratch = some (.file bytes)) :
    Runs (do
      let _ ← attempt (Disk.removeScratch s.nextScratch)
      throw (.io e) : Op Unit) { s with disk := d, nextScratch := s.nextScratch + 1 }
      (Placing p id bytes s) := by
  refine runs_attempt_bind (runs_removeScratch s.nextScratch d) ?_
  rintro r d' ⟨blocks, pins, faults, removed⟩
  have same : ∀ q : Place, q.area d' = q.area s.disk := by
    intro q
    rw [← areas q]
    cases q
    · exact blocks
    · exact pins
  exact ⟨scribbles_cleanup touches left faults removed, same _, .inr ⟨⟨_, rfl⟩, same _⟩⟩

theorem runs_writeFile (p : Place) (id : ContentId) (bytes : Bytes) (s : ObjectStore) :
    Runs (writeFile bytes (p.move id)) s (Placing p id bytes s) := by
  unfold writeFile
  refine runs_get_bind (runs_modify_bind ?_)
  refine runs_attempt_bind (runs_file p s.nextScratch id bytes s.disk) ?_
  rintro r d ⟨filed, touches⟩
  cases filed with
  | unwritten e same areas => exact runs_cleanup p id bytes e touches areas (.inl same)
  | unmoved e written areas =>
    exact runs_cleanup p id bytes e touches areas (.inr ⟨bytes, written⟩)
  | moved placed gone other =>
    exact runs_pure ⟨scribbles_moved touches gone, other, .inl ⟨rfl, placed⟩⟩

end ObjectStore

end Relay
