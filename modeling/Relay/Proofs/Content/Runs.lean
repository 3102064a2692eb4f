import Relay.Content.ObjectStore
import Relay.Proofs.Content.Area

/-!
# Runs of store operations

`Runs op s post` says what holds after an operation: of its result, a failure included, and of
the state it leaves. Sequences are taken apart with `runs_bind`; file steps, which may fail for no
reason of their own, with `Disk.runs_step`.
-/

namespace Relay

section

variable {ε σ α β : Type}

def Runs (op : ExceptT ε (StateM σ) α) (s : σ) (post : Except ε α → σ → Prop) : Prop :=
  post (op s).1 (op s).2

variable {op : ExceptT ε (StateM σ) α} {s : σ} {post post' : Except ε α → σ → Prop}

theorem Runs.of_eq (h : Runs op s post) {r : Except ε α} {t : σ} (ran : op s = (r, t)) :
    post r t := by
  rw [Runs, ran] at h
  exact h

theorem Runs.and (h : Runs op s post) (h' : Runs op s post') :
    Runs op s fun r t => post r t ∧ post' r t := ⟨h, h'⟩

theorem Runs.mono (h : Runs op s post) (weaker : ∀ r t, post r t → post' r t) :
    Runs op s post' := weaker _ _ h

theorem runs_pure {a : α} (h : post (.ok a) s) : Runs (pure a) s post := h

theorem runs_throw {e : ε} (h : post (.error e) s) : Runs (throw e) s post := h

/-- A sequence runs its second part on what the first leaves, if that succeeds. -/
theorem runs_bind {next : α → ExceptT ε (StateM σ) β} {after : Except ε β → σ → Prop}
    (first : Runs op s post) (ok : ∀ a t, post (.ok a) t → Runs (next a) t after)
    (error : ∀ e t, post (.error e) t → after (.error e) t) : Runs (op >>= next) s after := by
  unfold Runs at *
  simp only [bind, ExceptT.bind, ExceptT.mk, StateT.bind]
  cases ran : op s with
  | mk r t =>
    rw [ran] at first
    cases r with
    | ok a => exact ok a t first
    | error e => exact error e t first

/-- A first part that succeeds has no failure to be looked at. -/
theorem runs_bind_ok {a : α} {between : σ → Prop} {next : α → ExceptT ε (StateM σ) β}
    {after : Except ε β → σ → Prop} (first : Runs op s fun r t => r = .ok a ∧ between t)
    (rest : ∀ t, between t → Runs (next a) t after) : Runs (op >>= next) s after := by
  refine runs_bind first ?_ ?_
  · rintro a' t ⟨same, there⟩
    cases same
    exact rest t there
  · rintro e t ⟨failed, -⟩
    cases failed

theorem runs_get_bind {next : σ → ExceptT ε (StateM σ) β} {after : Except ε β → σ → Prop}
    (h : Runs (next s) s after) : Runs (get >>= next) s after := h

theorem runs_modify_bind {f : σ → σ} {next : PUnit → ExceptT ε (StateM σ) β}
    {after : Except ε β → σ → Prop} (h : Runs (next ⟨⟩) (f s) after) :
    Runs (modify f >>= next) s after := h

end

/-! ### File steps -/

namespace Disk

variable {α : Type}

/-- A file step fails by itself, or because of what it finds. -/
theorem runs_step {f : Disk → Except IoError (α × Disk)} {d : Disk}
    {post : Except IoError α → Disk → Prop}
    (fails : ∀ e, d.faults = some e :: d.faults.tail ∨
        f { d with faults := d.faults.tail } = .error e →
      post (.error e) { d with faults := d.faults.tail })
    (goes : ∀ a d', f { d with faults := d.faults.tail } = .ok (a, d') → post (.ok a) d') :
    Runs (step f) d post := by
  unfold Runs step
  split
  · next e rest script =>
    have tail : rest = d.faults.tail := by rw [script, List.tail_cons]
    rw [tail] at script ⊢
    exact fails e (.inl script)
  · dsimp only
    cases ran : f { d with faults := d.faults.tail } with
    | ok r => exact goes r.1 r.2 ran
    | error e => exact fails e (.inr ran)

/-- A step that only reads leaves all but the script of faults. -/
theorem runs_read {f : Disk → Except IoError α} {d : Disk} {post : Except IoError α → Disk → Prop}
    (blind : ∀ faults, f { d with faults } = f d)
    (fails : ∀ e, d.faults = some e :: d.faults.tail ∨ f d = .error e →
      post (.error e) { d with faults := d.faults.tail })
    (goes : ∀ a, f d = .ok a → post (.ok a) { d with faults := d.faults.tail }) :
    Runs (step fun d => (f d).map (·, d)) d post := by
  refine runs_step (fun e failed => fails e (failed.imp_right fun failed => ?_)) ?_
  · rw [blind] at failed
    cases found : f d with
    | ok a => rw [found] at failed; cases failed
    | error e' => rw [found] at failed; cases failed; rfl
  · intro a d' ran
    rw [blind] at ran
    cases found : f d with
    | ok a' =>
      rw [found] at ran
      cases ran
      exact goes a found
    | error e => rw [found] at ran; cases ran

/-! ### Moving a file into place -/

inductive Place where
  | blocks
  | pins

namespace Place

def area (p : Place) (d : Disk) : Area ContentId :=
  match p with
  | .blocks => d.blocks
  | .pins => d.pins

def other : Place → Place
  | .blocks => .pins
  | .pins => .blocks

def move (p : Place) (id : ContentId) (name : Nat) : Access Unit :=
  match p with
  | .blocks => moveToBlocks name id
  | .pins => moveToPins name id

end Place

theorem except_bind_eq_ok_iff {ε β : Type} {x : Except ε α} {f : α → Except ε β} {b : β} :
    (x >>= f) = .ok b ↔ ∃ a, x = .ok a ∧ f a = .ok b := by
  cases x with
  | ok a =>
    constructor
    · intro h; exact ⟨a, rfl, h⟩
    · rintro ⟨_, ⟨⟩, h⟩; exact h
  | error e =>
    constructor
    · intro h; cases h
    · rintro ⟨_, h, _⟩; cases h

/-- A file in scratch is moved as a whole, or nothing is changed. -/
theorem runs_move (p : Place) (name : Nat) (id : ContentId) (d : Disk) :
    Runs (p.move id name) d fun r d' =>
      (∃ e, r = .error e ∧ d' = { d with faults := d.faults.tail }) ∨
      ∃ bytes, r = .ok () ∧ d.scratch.read name = .ok bytes ∧
        (p.area d).write id bytes = .ok (p.area d') ∧ d.scratch.remove name = .ok d'.scratch ∧
        p.other.area d' = p.other.area d ∧ d'.faults = d.faults.tail := by
  cases p with
  | blocks =>
    dsimp only [Place.move, moveToBlocks]
    refine runs_step (fun e _ => Or.inl ⟨e, rfl, rfl⟩) fun a d' ran => Or.inr ?_
    obtain ⟨bytes, read, ran⟩ := except_bind_eq_ok_iff.1 ran
    obtain ⟨blocks, written, ran⟩ := except_bind_eq_ok_iff.1 ran
    obtain ⟨scratch, removed, ran⟩ := except_bind_eq_ok_iff.1 ran
    cases ran
    exact ⟨bytes, rfl, read, written, removed, rfl, rfl⟩
  | pins =>
    dsimp only [Place.move, moveToPins]
    refine runs_step (fun e _ => Or.inl ⟨e, rfl, rfl⟩) fun a d' ran => Or.inr ?_
    obtain ⟨bytes, read, ran⟩ := except_bind_eq_ok_iff.1 ran
    obtain ⟨pins, written, ran⟩ := except_bind_eq_ok_iff.1 ran
    obtain ⟨scratch, removed, ran⟩ := except_bind_eq_ok_iff.1 ran
    cases ran
    exact ⟨bytes, rfl, read, written, removed, rfl, rfl⟩

theorem runs_writeScratch (name : Nat) (bytes : Bytes) (d : Disk) :
    Runs (writeScratch name bytes) d fun r d' =>
      (∃ e, r = .error e ∧ d' = { d with faults := d.faults.tail } ) ∨
      r = .ok () ∧ ∃ scratch, d.scratch.write name bytes = .ok scratch ∧
        d' = { d with scratch, faults := d.faults.tail } := by
  refine runs_step (fun e _ => Or.inl ⟨e, rfl, rfl⟩) fun a d' ran => Or.inr ⟨rfl, ?_⟩
  cases written : d.scratch.write name bytes with
  | error e => simp [written, Except.map] at ran
  | ok scratch =>
    simp only [written, Except.map, Except.ok.injEq, Prod.mk.injEq] at ran
    exact ⟨scratch, rfl, ran.2.symm⟩

/-- A scratch file is removed; that it is there still means that the step failed by itself. -/
theorem runs_removeScratch (name : Nat) (d : Disk) :
    Runs (removeScratch name) d fun _ d' =>
      d'.blocks = d.blocks ∧ d'.pins = d.pins ∧ d'.faults = d.faults.tail ∧
      (d'.scratch = d.scratch ∧
          (∃ e, d.faults = some e :: d'.faults ∨ d.scratch.remove name = .error e) ∨
        d.scratch.remove name = .ok d'.scratch) := by
  refine runs_step ?_ ?_
  · intro e failed
    refine ⟨rfl, rfl, rfl, .inl ⟨rfl, e, failed.imp_right fun failed => ?_⟩⟩
    cases removed : d.scratch.remove name with
    | ok scratch => simp [removed, Except.map] at failed
    | error e' =>
      simp only [removed, Except.map, Except.error.injEq] at failed
      rw [failed]
  · intro a d' ran
    cases removed : d.scratch.remove name with
    | error e => simp [removed, Except.map] at ran
    | ok scratch =>
      simp only [removed, Except.map, Except.ok.injEq, Prod.mk.injEq] at ran
      obtain ⟨_, rfl⟩ := ran
      exact ⟨rfl, rfl, rfl, .inr rfl⟩

theorem runs_removePin (id : ContentId) (d : Disk) :
    Runs (removePin id) d fun r d' =>
      d'.blocks = d.blocks ∧ d'.scratch = d.scratch ∧ d'.faults = d.faults.tail ∧
      ((∃ e, r = .error e) ∧ d'.pins = d.pins ∨ r = .ok () ∧ d.pins.remove id = .ok d'.pins) := by
  refine runs_step (fun e _ => ⟨rfl, rfl, rfl, .inl ⟨⟨e, rfl⟩, rfl⟩⟩) fun a d' ran => ?_
  cases removed : d.pins.remove id with
  | error e => simp [removed, Except.map] at ran
  | ok pins =>
    simp only [removed, Except.map, Except.ok.injEq, Prod.mk.injEq] at ran
    obtain ⟨_, rfl⟩ := ran
    exact ⟨rfl, rfl, rfl, .inr ⟨rfl, rfl⟩⟩

end Disk

end Relay
