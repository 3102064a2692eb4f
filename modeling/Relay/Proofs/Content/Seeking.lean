import Relay.Proofs.Content.Rest

/-!
# What a walk looks for

A walk looks at nothing but what its root leads to (`Walk.Seeks`). So in a store at rest it breaks
off only where something is missing that the root leads to, and it comes to its end exactly if all
of that is stored (`Walk.runs_seeking`, `Walk.stored_of_isOver`).
-/

namespace Relay

namespace ObjectStore

variable {s t : ObjectStore} {root : Node} {id : ContentId}

/-- What a node leads to depends on the blocks alone. -/
theorem Reaches.same (h : Reaches s root id) (blocks : t.disk.blocks = s.disk.blocks) :
    Reaches t root id := by
  induction h with
  | link linked => exact .link linked
  | through _ found linked ih =>
    refine .through ih ?_ linked
    rwa [nodeAt?, blocks]

end ObjectStore

namespace Walk

open ObjectStore

/-- All that a walk still has to look at is something that its root leads to. -/
structure Seeks (w : Walk) (s : ObjectStore) (root : Node) : Prop where
  pending : ∀ id ∈ w.pending, Reaches s root id
  reading : ∀ id, w.expanding = some id →
    Reaches s root id ∧ id.codec = .node ∧ s.disk.blocks.get? id ≠ none

variable {w w' : Walk} {s : ObjectStore} {root : Node}

theorem seeks_ofNode (root : Node) (known : Option ContentId) (s : ObjectStore) :
    (ofNode root known).Seeks s root where
  pending _ mem := .link (List.mem_reverse.1 mem)
  reading _ reading := by cases reading

theorem Seeks.moves (h : w.Seeks s root) (moves : Moves s w w') : w'.Seeks s root := by
  cases moves with
  | skip seen =>
    refine ⟨fun id mem => ?_, fun id reading => by cases reading⟩
    exact h.pending id (List.mem_cons_of_mem _ mem)
  | @visit visited pending count id new stored =>
    refine ⟨fun id' mem => ?_, fun id' reading => ?_⟩
    · rw [pending_visit] at mem
      exact h.pending id' (List.mem_cons_of_mem _ mem)
    · unfold Walk.visit at reading
      split at reading
      · next codec =>
        cases reading
        exact ⟨h.pending id List.mem_cons_self, codec, stored⟩
      · cases reading
  | @expand visited pending count id node found =>
    refine ⟨fun id' mem => ?_, fun id' reading => by cases reading⟩
    rcases List.mem_append.1 mem with linked | waits
    · exact .through (h.reading id rfl).1 found (List.mem_reverse.1 linked)
    · exact h.pending id' waits

/-- A step in a store at rest breaks off only at something that is missing. -/
theorem runs_seeking (rest : s.AtRest) (covers : w.Covers s root) (seeks : w.Seeks s root)
    (more : ¬w.isOver) :
    Runs w.step s fun r t => t = s ∧
      (∀ w', r = .ok w' → w'.Covers s root ∧ w'.Seeks s root) ∧
      ∀ e, r = .error e → ∃ id, Reaches s root id ∧ s.disk.blocks.get? id = none := by
  refine (step_outcome more).mono ?_
  rintro r t ⟨quiet, moves, stops⟩
  refine ⟨rest.quiet_eq quiet, fun w' ok => ?_, fun e failed => ?_⟩
  · exact ⟨covers.moves (moves w' ok).1, seeks.moves (moves w' ok).1⟩
  · cases stops e failed with
    | missing new absent => exact ⟨_, seeks.pending _ List.mem_cons_self, absent⟩
    | unseen new failed =>
      rw [rest.contains_eq] at failed
      cases failed
    | unread failed =>
      obtain ⟨-, codec, there⟩ := seeks.reading _ rfl
      obtain ⟨node, found⟩ := rest.nodeAt?_of_present codec there
      rcases failed.1 with fault | nowhere
      · rw [fault?, rest.still] at fault
        exact absurd rfl fault
      · rw [found] at nowhere
        cases nowhere

end Walk

end Relay
