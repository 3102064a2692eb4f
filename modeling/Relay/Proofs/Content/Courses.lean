import Relay.Proofs.Content.Seeking

/-!
# Courses of walks

A walk ends, whatever the blocks are and however they link to each other, since each step uses up
a link or a block (`Course.work_le`).
-/

namespace Relay

namespace Walk

open ObjectStore

variable {w w' v v' : Walk} {s t t' : ObjectStore} {root : Node} {known : Option ContentId}
  {id : ContentId} {n : Nat}

/-- A walk has gone on to another one in so many steps. -/
inductive Course (w : Walk) (s : ObjectStore) : Nat → Walk → ObjectStore → Prop
  | start : Course w s 0 w s
  | step {n : Nat} {v v' : Walk} {t t' : ObjectStore} (before : Course w s n v t)
      (more : ¬v.isOver) (goes : v.step t = (.ok v', t')) : Course w s (n + 1) v' t'

theorem Course.quiet (h : w.Course s n v t) : Quiet s t := by
  induction h with
  | start => exact .refl s
  | step _ more goes ih => exact ih.trans ((step_outcome more).of_eq goes).1

theorem Course.moves (h : w.Course s n v t) (more : ¬v.isOver) (goes : v.step t = (.ok v', t')) :
    Moves s v v' :=
  (((step_outcome more).of_eq goes).2.1 v' rfl).1.same h.quiet.blocks

/-- What each step keeps holds all along. -/
theorem Course.induct {P : Nat → Walk → Prop} (h : w.Course s n v t) (start : P 0 w)
    (moves : ∀ n v v', P n v → Moves s v v' → P (n + 1) v') : P n v := by
  induction h with
  | start => exact start
  | step before more goes ih => exact moves _ _ _ ih (before.moves more goes)

theorem Course.first (more : ¬w.isOver) (goes : w.step s = (.ok w', t))
    (h : w'.Course t n v t') : w.Course s (n + 1) v t' := by
  induction h with
  | start => exact .step .start more goes
  | step _ more' goes' ih => exact .step ih more' goes'

/-- A walk ends where its course does: it is over, or a step fails. -/
theorem run_course (w : Walk) (s : ObjectStore) : ∃ n v t, w.Course s n v t ∧
    (v.isOver ∧ w.run s = (.ok v.count, t) ∨
      ∃ e u, ¬v.isOver ∧ v.step t = (.error e, u) ∧ w.run s = (.error e, u)) := by
  induction w, s using Walk.run.induct with
  | case1 w s ended => exact ⟨0, w, s, .start, .inl ⟨ended, run_of_isOver ended s⟩⟩
  | case2 w s more w' s' goes ih =>
    obtain ⟨n, v, t, course, ends⟩ := ih
    rw [← run_of_step more goes] at ends
    exact ⟨n + 1, v, t, course.first more goes, ends⟩
  | case3 w s more e s' failed =>
    exact ⟨0, w, s, .start, .inr ⟨e, s', more, failed, run_of_error more failed⟩⟩

theorem Course.run_eq (h : w.Course s n v t) : w.run s = v.run t := by
  induction h with
  | start => rfl
  | step _ more goes ih => rw [ih, run_of_step more goes]

/-- A node that has been visited has been read, or is going to be. -/
theorem Course.entered (h : w.Course s n v t) (raw : ∀ id ∈ w.visited, id.codec = .raw)
    (mem : id ∈ v.visited) (codec : id.codec = .node) :
    ∃ m u r, w.Course s m u r ∧ u.expanding = some id := by
  induction h with
  | start =>
    rw [raw id mem] at codec
    cases codec
  | @step n v v' t t' before more goes ih =>
    have now := before.step more goes
    cases (((step_outcome more).of_eq goes).2.1 v' rfl).1 with
    | skip seen => exact ih mem
    | visit new stored =>
      rw [visited_visit] at mem
      rcases List.mem_cons.1 mem with rfl | mem
      · refine ⟨n + 1, _, t', now, ?_⟩
        rw [Walk.visit, codec]
      · exact ih mem
    | expand found => exact ih mem

/-! ### Walks are short -/

/-- What a block takes: looking at it, and each link in it. -/
def weight (s : ObjectStore) (id : ContentId) : Nat :=
  match s.nodeAt? id with
  | some node => 1 + node.targets.length
  | none => 1

def weights (s : ObjectStore) : List ContentId → Nat
  | [] => 0
  | id :: ids => weight s id + weights s ids

/-- All blocks of a store, and all links in them. -/
def extent (s : ObjectStore) : Nat := weights s s.blockIds

/-- The weight of all blocks but the visited ones. -/
def ahead (s : ObjectStore) (visited : List ContentId) : Nat :=
  weights s (s.blockIds.filter fun id => decide (id ∉ visited))

/-- The steps that a walk may take yet. -/
def work (w : Walk) (s : ObjectStore) : Nat :=
  w.pending.length + weights s w.expanding.toList + ahead s w.visited

theorem weights_filter_le (s : ObjectStore) (p : ContentId → Bool) (ids : List ContentId) :
    weights s (ids.filter p) ≤ weights s ids := by
  induction ids with
  | nil => exact Nat.le_refl _
  | cons id rest ih =>
    rw [List.filter_cons, weights]
    split
    · exact Nat.add_le_add_left ih _
    · exact Nat.le_add_left_of_le ih

theorem weights_filter_ne {ids : List ContentId} (mem : id ∈ ids) :
    weights s (ids.filter fun i => decide (i ≠ id)) + weight s id ≤ weights s ids := by
  induction ids with
  | nil => cases mem
  | cons i rest ih =>
    rw [weights]
    by_cases same : i = id
    · have less := weights_filter_le s (fun i => decide (i ≠ id)) rest
      rw [List.filter_cons_of_neg (by simpa using same), same]
      omega
    · have less := ih ((List.mem_cons.1 mem).resolve_left (Ne.symm same))
      rw [List.filter_cons_of_pos (by simpa using same), weights]
      omega

/-- A block that is visited is no longer ahead. -/
theorem ahead_cons {visited : List ContentId} (new : id ∉ visited)
    (stored : s.disk.blocks.get? id ≠ none) :
    ahead s (id :: visited) + weight s id ≤ ahead s visited := by
  have left : (s.blockIds.filter fun i => decide (i ∉ id :: visited)) =
      (s.blockIds.filter fun i => decide (i ∉ visited)).filter fun i => decide (i ≠ id) := by
    simp only [List.filter_filter, List.mem_cons, not_or, ne_eq, Bool.decide_and]
  have there : id ∈ s.blockIds.filter fun i => decide (i ∉ visited) :=
    List.mem_filter.2 ⟨Area.mem_keys stored, decide_eq_true new⟩
  rw [ahead, ahead, left]
  exact weights_filter_ne there

theorem work_idle (visited pending : List ContentId) (count : Nat) (s : ObjectStore) :
    work ⟨visited, pending, count, none⟩ s = pending.length + ahead s visited := rfl

theorem work_reading (visited pending : List ContentId) (count : Nat) (id : ContentId)
    (s : ObjectStore) : work ⟨visited, pending, count, some id⟩ s =
      pending.length + weight s id + ahead s visited := rfl

theorem work_visit (visited pending : List ContentId) (count : Nat) (id : ContentId)
    (s : ObjectStore) : work ((⟨visited, pending, count, none⟩ : Walk).visit id) s ≤
      pending.length + weight s id + ahead s (id :: visited) := by
  unfold Walk.visit
  split
  · exact Nat.le_refl _
  · exact Nat.add_le_add_right (Nat.le_add_right _ _) _

theorem work_moves (h : Moves s w w') : w'.work s + 1 ≤ w.work s := by
  cases h with
  | skip seen =>
    rw [work_idle, work_idle, List.length_cons]
    omega
  | @visit visited pending count id new stored =>
    have less := ahead_cons new stored
    have most := work_visit visited pending count id s
    rw [work_idle, List.length_cons]
    omega
  | @expand visited pending count id node found =>
    have weighs : weight s id = 1 + node.targets.length := by simp only [weight, found]
    rw [work_idle, work_reading, List.length_append, List.length_reverse, weighs]
    omega

theorem Course.work_le (h : w.Course s n v t) : n + v.work s ≤ w.work s := by
  refine h.induct (P := fun n v => n + v.work s ≤ w.work s) (Nat.le_of_eq (Nat.zero_add _)) ?_
  intro n v v' ih moves
  have less := work_moves moves
  omega

theorem work_ofNode (root : Node) (known : Option ContentId) (s : ObjectStore) :
    (ofNode root known).work s ≤ root.targets.length + extent s := by
  rw [ofNode, work_idle, List.length_reverse]
  exact Nat.add_le_add_left (weights_filter_le s _ _) _

end Walk

end Relay
