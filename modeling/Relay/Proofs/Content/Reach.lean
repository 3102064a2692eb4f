import Relay.Proofs.Content.Moves

/-!
# What a node leads to

`Reaches s node id` says that links lead from a node to an id, through nodes that the store holds.
A walk keeps that all it has found is stored, and that the links of what it has read are visited
or waiting (`Walk.Covers`); when it is over, all that the node leads to is stored.
-/

namespace Relay

namespace ObjectStore

inductive Reaches (s : ObjectStore) (root : Node) : ContentId → Prop
  | link {id : ContentId} (linked : id ∈ root.targets) : Reaches s root id
  | through {id id' : ContentId} {node : Node} (reached : Reaches s root id)
      (found : s.nodeAt? id = some node) (linked : id' ∈ node.targets) : Reaches s root id'

/-- All blocks that stand in `s` stand in `t` too. -/
def Grows (s t : ObjectStore) : Prop :=
  ∀ id e, s.disk.blocks.get? id = some e → t.disk.blocks.get? id = some e

variable {s t : ObjectStore} {root : Node}

theorem Grows.refl (s : ObjectStore) : Grows s s := fun _ _ h => h

theorem Grows.present (h : Grows s t) {id : ContentId} (there : s.disk.blocks.get? id ≠ none) :
    t.disk.blocks.get? id = s.disk.blocks.get? id := by
  cases entry : s.disk.blocks.get? id with
  | none => exact absurd entry there
  | some e => exact h id e entry

/-- What is stored leads to the same nodes when the store grows. -/
theorem Grows.nodeAt? (h : Grows s t) {id : ContentId} (there : s.disk.blocks.get? id ≠ none) :
    t.nodeAt? id = s.nodeAt? id := by
  rw [ObjectStore.nodeAt?, ObjectStore.nodeAt?, h.present there]

/-- What a node leads to stays so when the store grows, if all of it is stored. -/
theorem Grows.reaches (h : Grows s t)
    (stored : ∀ id, Reaches s root id → s.disk.blocks.get? id ≠ none) {id : ContentId}
    (reached : Reaches t root id) : Reaches s root id := by
  induction reached with
  | link linked => exact .link linked
  | through _ found linked ih =>
    rw [h.nodeAt? (stored _ ih)] at found
    exact .through ih found linked

end ObjectStore

namespace Walk

open ObjectStore

/-- A walk from a root has found nothing that is missing, and forgets no link. -/
structure Covers (w : Walk) (s : ObjectStore) (root : Node) : Prop where
  present : ∀ id ∈ w.visited, s.disk.blocks.get? id ≠ none
  roots : ∀ id ∈ root.targets, id ∈ w.visited ∨ id ∈ w.pending
  links : ∀ id ∈ w.visited, w.expanding ≠ some id → ∀ node, s.nodeAt? id = some node →
    ∀ id' ∈ node.targets, id' ∈ w.visited ∨ id' ∈ w.pending

variable {w w' : Walk} {s t : ObjectStore} {root : Node}

theorem covers_ofNode (root : Node) {known : Option ContentId}
    (raw : ∀ id ∈ known, id.codec = .raw ∧ s.disk.blocks.get? id ≠ none) :
    (ofNode root known).Covers s root where
  present := fun id mem => (raw id (Option.mem_toList.1 mem)).2
  roots := fun id linked => .inr (List.mem_reverse.2 linked)
  links := by
    intro id mem _ node found
    have codec := (raw id (Option.mem_toList.1 mem)).1
    have node_codec := (nodeAt?_eq_some_iff.1 found).1
    rw [codec] at node_codec
    cases node_codec

theorem Covers.grows (h : w.Covers s root) (grows : Grows s t) : w.Covers t root where
  present := by
    intro id mem
    rw [grows.present (h.present id mem)]
    exact h.present id mem
  roots := h.roots
  links := by
    intro id mem free node found
    rw [grows.nodeAt? (h.present id mem)] at found
    exact h.links id mem free node found

/-- A step only finds what is stored and forgets no link: those of a node that is visited are
read next. -/
theorem Covers.moves (h : w.Covers s root) (moves : Moves s w w') : w'.Covers s root := by
  have noted : ∀ id ∈ root.targets, w'.Notes id := fun id linked => moves.notes (h.roots id linked)
  have kept : ∀ id ∈ w.visited, w.expanding ≠ some id → ∀ node, s.nodeAt? id = some node →
      ∀ id' ∈ node.targets, w'.Notes id' := by
    intro id mem free node found id' linked
    exact moves.notes (h.links id mem free node found id' linked)
  cases moves with
  | skip seen => exact ⟨h.present, noted, kept⟩
  | @visit visited pending count id new stored =>
    have present : ∀ id' ∈ id :: visited, s.disk.blocks.get? id' ≠ none :=
      List.forall_mem_cons.2 ⟨stored, h.present⟩
    refine ⟨by rwa [visited_visit], noted, fun id' mem free node found => ?_⟩
    rw [visited_visit] at mem
    rcases List.mem_cons.1 mem with rfl | mem
    · rw [Walk.visit, (nodeAt?_eq_some_iff.1 found).1] at free
      exact absurd rfl free
    · exact kept id' mem (fun reading => by cases reading) node found
  | @expand visited pending count id node found =>
    refine ⟨h.present, noted, fun id' mem _ node' found' => ?_⟩
    by_cases same : id' = id
    · rw [same, found] at found'
      cases found'
      exact fun id'' linked => .inr (List.mem_append_left _ (List.mem_reverse.2 linked))
    · exact kept id' mem (fun reading => same (Option.some.inj reading).symm) node' found'

/-- A step of a walk only reads, and a walk that goes on still covers its root. -/
theorem runs_step (w : Walk) (s : ObjectStore) :
    Runs w.step s fun r t => Quiet s t ∧
      ∀ w' root, r = .ok w' → w.Covers s root → w'.Covers s root := by
  by_cases ended : w.isOver
  · rw [step_of_isOver ended]
    refine runs_pure ⟨.refl s, fun w' root ok h => ?_⟩
    cases ok
    exact h
  · refine (step_outcome ended).mono ?_
    rintro r t ⟨quiet, moves, -⟩
    exact ⟨quiet, fun w' root ok h => h.moves (moves w' ok).1⟩

/-- A walk that is over has visited all that its root leads to. -/
theorem stored_of_isOver (h : w.Covers s root) (ended : w.isOver) {id : ContentId}
    (reached : Reaches s root id) : s.disk.blocks.get? id ≠ none := by
  have done : w.pending = [] ∧ w.expanding = none := by simpa [isOver] using ended
  have visited : ∀ id', id' ∈ w.visited ∨ id' ∈ w.pending → id' ∈ w.visited := by
    rintro id' (found | waits)
    · exact found
    · rw [done.1] at waits
      cases waits
  -- what is linked from something visited was visited itself, since nothing waits any more
  have found : id ∈ w.visited := by
    induction reached with
    | link linked => exact visited _ (h.roots _ linked)
    | through _ found linked ih =>
      refine visited _ (h.links _ ih ?_ _ found _ linked)
      rw [done.2]
      exact fun h => by cases h
  exact h.present id found

end Walk

end Relay
