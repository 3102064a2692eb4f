import Relay.Content.Walk
import Relay.Proofs.Content.Additions

/-!
# How a walk goes on

All that a step of a walk can do is `Walk.Moves` and, where it fails, `Walk.Stops`
(`Walk.step_outcome`). Both are told of the blocks alone, but for the fault that came between.
-/

namespace Relay

namespace ObjectStore

def nodeAt? (s : ObjectStore) (id : ContentId) : Option Node :=
  match id.codec, s.disk.blocks.get? id with
  | .node, some (.file bytes) => (Node.ofBytes bytes).toOption
  | _, _ => none

theorem nodeAt?_eq_some_iff {s : ObjectStore} {id : ContentId} {node : Node} :
    s.nodeAt? id = some node ↔ id.codec = .node ∧
      ∃ bytes, s.disk.blocks.get? id = some (.file bytes) ∧ Node.ofBytes bytes = .ok node := by
  unfold nodeAt?
  constructor
  · intro h
    split at h
    · next bytes codec file =>
      refine ⟨codec, bytes, file, ?_⟩
      cases decoded : Node.ofBytes bytes with
      | ok node' => rw [decoded] at h; cases h; rfl
      | error fault => rw [decoded] at h; cases h
    · cases h
  · rintro ⟨codec, bytes, file, decoded⟩
    rw [codec, file]
    dsimp only
    rw [decoded]
    rfl

variable {s : ObjectStore} {id : ContentId}

/-! ### Reading -/

/-- What the next file step fails with, if it is one that fails. -/
def fault? (s : ObjectStore) : Option IoError := s.disk.faults.head?.join

/-- What comes of reading a block: what stands there, unless the step fails. -/
def reading (s : ObjectStore) (id : ContentId) : Except IoError Bytes :=
  match s.fault? with
  | some e => .error e
  | none => s.disk.blocks.read id

theorem readBlock_eq (id : ContentId) (s : ObjectStore) : Disk.readBlock id s.disk =
    (s.reading id, { s.disk with faults := s.disk.faults.tail }) := by
  unfold Disk.readBlock Disk.step reading fault?
  rcases s with ⟨⟨blocks, pins, scratch, _ | ⟨_ | e, rest⟩⟩, limit, name⟩
  · dsimp only
    cases blocks.read id <;> rfl
  · dsimp only
    cases blocks.read id <;> rfl
  · rfl

theorem reading_eq_ok {bytes : Bytes} (ok : s.reading id = .ok bytes) :
    s.fault? = none ∧ s.disk.blocks.get? id = some (.file bytes) := by
  unfold reading at ok
  split at ok
  · cases ok
  · next steady => exact ⟨steady, Area.read_eq_ok_iff.1 ok⟩

theorem reading_eq_error {e : IoError} (failed : s.reading id = .error e) :
    s.fault? = some e ∨ s.disk.blocks.read id = .error e := by
  unfold reading at failed
  split at failed
  · next fault => cases failed; exact .inl fault
  · exact .inr failed

theorem nodeAt?_of_not_read {e : IoError} (failed : s.disk.blocks.read id = .error e) :
    s.nodeAt? id = none := by
  refine Option.eq_none_iff_forall_ne_some.2 fun node found => ?_
  obtain ⟨-, bytes, file, -⟩ := nodeAt?_eq_some_iff.1 found
  rw [Area.read_eq_ok_iff.2 file] at failed
  cases failed

/-- Why an object is not read as a node: the step fails by itself, or there is no node. That
nothing is there is told by a fault, or it is so. -/
def Unread (s : ObjectStore) (id : ContentId) (e : ObjectError) : Prop :=
  (s.fault? ≠ none ∨ s.nodeAt? id = none) ∧
    ∀ id', e = .notFound id' → id' = id ∧
      (s.disk.blocks.get? id = none ∨ s.fault? = some .notFound)

theorem fetch_outcome (id : ContentId) (s : ObjectStore) :
    Runs (fetch id) s fun r _ =>
      (∀ bytes, r = .ok bytes → s.fault? = none ∧ s.disk.blocks.get? id = some (.file bytes)) ∧
        ∀ e, r = .error e → s.Unread id e := by
  have read : Runs (Disk.readBlock id) s.disk fun r _ => r = s.reading id := by
    rw [Runs, readBlock_eq]
  unfold fetch
  refine runs_attempt_bind read ?_
  rintro r d rfl
  cases result : s.reading id with
  | ok bytes =>
    refine runs_pure ⟨fun bytes' ok => ?_, fun e h => by cases h⟩
    cases ok
    exact reading_eq_ok result
  | error e =>
    have why := reading_eq_error result
    have bad : s.fault? ≠ none ∨ s.nodeAt? id = none :=
      why.imp (fun fault => by rw [fault]; exact Option.some_ne_none e) nodeAt?_of_not_read
    cases e
    case notFound =>
      refine runs_throw ⟨fun bytes ok => (by cases ok), fun e h => ⟨bad, fun id' told => ?_⟩⟩
      cases h
      cases told
      exact ⟨rfl, why.symm.imp_left Area.get?_of_notFound⟩
    all_goals
      refine runs_throw ⟨fun bytes ok => (by cases ok), fun e h => ⟨bad, fun id' told => ?_⟩⟩
      cases h
      cases told

/-- An object is read as the node that is there, if no fault comes between. -/
theorem readNode_outcome (id : ContentId) (s : ObjectStore) :
    Runs (readNode id) s fun r _ =>
      (∀ node, r = .ok node → s.fault? = none ∧ s.nodeAt? id = some node) ∧
        ∀ e, r = .error e → s.Unread id e := by
  unfold readNode
  split
  · next codec =>
    refine ⟨fun node ok => (by cases ok), fun e h => ⟨.inr ?_, fun id' told => ?_⟩⟩
    · refine Option.eq_none_iff_forall_ne_some.2 fun node found => ?_
      exact codec (nodeAt?_eq_some_iff.1 found).1
    · cases h
      cases told
  · next codec =>
    have codec : id.codec = .node := Classical.not_not.1 codec
    refine runs_bind (fetch_outcome id s) ?_ fun e t h => ⟨fun node ok => (by cases ok), ?_⟩
    · rintro bytes t ⟨read, -⟩
      obtain ⟨steady, file⟩ := read bytes rfl
      cases decoded : Node.ofBytes bytes with
      | ok node =>
        refine runs_pure ⟨fun node' ok => ?_, fun e h => by cases h⟩
        cases ok
        exact ⟨steady, nodeAt?_eq_some_iff.2 ⟨codec, bytes, file, decoded⟩⟩
      | error fault =>
        refine runs_throw ⟨fun node ok => (by cases ok), fun e h => ⟨.inr ?_, fun id' told => ?_⟩⟩
        · simp only [nodeAt?, codec, file, decoded, Except.toOption]
        · cases h
          cases told
    · intro e' h'
      cases h'
      exact h.2 e rfl

end ObjectStore

namespace Walk

open ObjectStore

theorem visited_visit (w : Walk) (id : ContentId) : (w.visit id).visited = id :: w.visited := by
  unfold visit
  split <;> rfl

theorem pending_visit (w : Walk) (id : ContentId) : (w.visit id).pending = w.pending := by
  unfold visit
  split <;> rfl

variable {w w' v v' : Walk} {s t : ObjectStore} {id : ContentId}

/-- How a walk goes on. Only a stored id is visited, and only a node that is there is expanded. -/
inductive Moves (s : ObjectStore) : Walk → Walk → Prop
  | skip {visited pending : List ContentId} {count : Nat} {id : ContentId} (seen : id ∈ visited) :
      Moves s ⟨visited, id :: pending, count, none⟩ ⟨visited, pending, count, none⟩
  | visit {visited pending : List ContentId} {count : Nat} {id : ContentId} (new : id ∉ visited)
      (stored : s.disk.blocks.get? id ≠ none) :
      Moves s ⟨visited, id :: pending, count, none⟩
        ((⟨visited, pending, count, none⟩ : Walk).visit id)
  | expand {visited pending : List ContentId} {count : Nat} {id : ContentId} {node : Node}
      (found : s.nodeAt? id = some node) :
      Moves s ⟨visited, pending, count, some id⟩
        ⟨visited, node.targets.reverse ++ pending, count + 1, none⟩

/-- Why a walk goes no further: a new id is missing, or cannot be looked up, or a node cannot be
read. -/
inductive Stops (s : ObjectStore) : Walk → ObjectError → Prop
  | missing {visited pending : List ContentId} {count : Nat} {id : ContentId} (new : id ∉ visited)
      (absent : s.disk.blocks.get? id = none) :
      Stops s ⟨visited, id :: pending, count, none⟩ (.notFound id)
  | unseen {visited pending : List ContentId} {count : Nat} {id : ContentId} {e : ObjectError}
      (new : id ∉ visited) (failed : (contains id s).1 = .error e) :
      Stops s ⟨visited, id :: pending, count, none⟩ e
  | unread {visited pending : List ContentId} {count : Nat} {id : ContentId} {e : ObjectError}
      (failed : s.Unread id e) : Stops s ⟨visited, pending, count, some id⟩ e

theorem step_of_isOver (ended : w.isOver) : w.step = pure w := by
  obtain ⟨visited, pending, count, expanding⟩ := w
  obtain ⟨rfl, rfl⟩ : pending = [] ∧ expanding = none := by simpa [isOver] using ended
  rfl

/-- All that a step can do. -/
theorem step_outcome (more : ¬w.isOver) : Runs w.step s fun r t => Quiet s t ∧
    (∀ w', r = .ok w' → Moves s w w' ∧ (w.expanding ≠ none → s.fault? = none)) ∧
    ∀ e, r = .error e → Stops s w e := by
  obtain ⟨visited, pending, count, expanding⟩ := w
  unfold Walk.step
  cases expanding with
  | some id =>
    have reads : Runs (readNode id) s fun r t => Quiet s t ∧
        (∀ node, r = .ok node → s.fault? = none ∧ s.nodeAt? id = some node) ∧
        ∀ e, r = .error e → s.Unread id e := ⟨(runs_readNode id s).1, readNode_outcome id s⟩
    refine runs_bind reads ?_ ?_
    · rintro node t ⟨quiet, read, -⟩
      obtain ⟨steady, found⟩ := read node rfl
      refine runs_pure ⟨quiet, fun w' ok => ?_, fun e h => by cases h⟩
      cases ok
      exact ⟨.expand found, fun _ => steady⟩
    · rintro e t ⟨quiet, -, unread⟩
      refine ⟨quiet, fun w' ok => (by cases ok), fun e' h => ?_⟩
      cases h
      exact .unread (unread e rfl)
  | none =>
    cases pending with
    | nil => exact absurd rfl more
    | cons id pending =>
      dsimp only
      split
      · next seen =>
        refine runs_pure ⟨.refl s, fun w' ok => ?_, fun e h => by cases h⟩
        cases ok
        exact ⟨.skip seen, fun reading => absurd rfl reading⟩
      · next new =>
        have looked : Runs (contains id) s fun r t => Quiet s t ∧
            (∀ b, r = .ok b → s.disk.blocks.contains id = .ok b) ∧ r = (contains id s).1 :=
          ⟨(runs_contains id s).1, (runs_contains id s).2, rfl⟩
        refine runs_bind looked ?_ ?_
        · rintro found t ⟨quiet, seen, -⟩
          cases found with
          | false =>
            refine runs_throw ⟨quiet, fun w' ok => (by cases ok), fun e h => ?_⟩
            cases h
            exact .missing new (Area.get?_of_not_contains (seen false rfl))
          | true =>
            refine runs_pure ⟨quiet, fun w' ok => ?_, fun e h => by cases h⟩
            cases ok
            have stored := Area.contains_eq_true_iff.1 (seen true rfl)
            exact ⟨.visit new stored, fun reading => absurd rfl reading⟩
        · rintro e t ⟨quiet, -, failed⟩
          refine ⟨quiet, fun w' ok => (by cases ok), fun e' h => ?_⟩
          cases h
          exact .unseen new failed.symm

theorem Moves.same (h : Moves t v v') (blocks : t.disk.blocks = s.disk.blocks) :
    Moves s v v' := by
  cases h with
  | skip seen => exact .skip seen
  | visit new stored => exact .visit new (blocks ▸ stored)
  | expand found =>
    refine .expand ?_
    rw [nodeAt?, ← blocks]
    exact found

/-- An id that a walk has not lost sight of. -/
def Notes (w : Walk) (id : ContentId) : Prop := id ∈ w.visited ∨ id ∈ w.pending

theorem Moves.notes (h : Moves s w w') (noted : w.Notes id) : w'.Notes id := by
  cases h with
  | skip seen =>
    rcases noted with found | waits
    · exact .inl found
    · rcases List.mem_cons.1 waits with rfl | waits
      · exact .inl seen
      · exact .inr waits
  | visit new stored =>
    rw [Notes, visited_visit, pending_visit]
    rcases noted with found | waits
    · exact .inl (List.mem_cons_of_mem _ found)
    · rcases List.mem_cons.1 waits with rfl | waits
      · exact .inl List.mem_cons_self
      · exact .inr waits
  | expand found => exact noted.imp_right (List.mem_append_right _)

end Walk

end Relay
