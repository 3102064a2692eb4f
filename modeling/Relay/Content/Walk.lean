import Relay.Content.Keeps

/-!
# Walking links

A walk makes sure that all that can be reached from a node's links is stored: ids are taken from
a stack, each one is looked up once, and the links of a stored node are put on the stack, the
last one on top. Looking up and reading leave the blocks as they are, so a walk ends: it visits
a stored id once, and between visits the stack shrinks.
-/

namespace Relay

structure Walk where
  /-- Ids that need no visit any more. -/
  visited : List ContentId := []
  /-- Ids still to be looked at, the next one first. -/
  pending : List ContentId := []
  /-- How many ids have been visited. -/
  count : Nat := 0
  /-- A node that is stored, with its links still to be read. -/
  expanding : Option ContentId := none

namespace Walk

/-- The walk from the links of a node, with an id that is known to be stored. -/
def ofNode (node : Node) (known : Option ContentId) : Walk :=
  { visited := known.toList, pending := node.targets.reverse }

def isOver (w : Walk) : Bool := w.pending.isEmpty && w.expanding.isNone

/-- Puts the links of the node that is read on the stack. -/
def expand (w : Walk) (node : Node) : Walk :=
  { w with
    pending := node.targets.reverse ++ w.pending, count := w.count + 1, expanding := none }

/-- Visits an id that is stored. -/
def visit (w : Walk) (id : ContentId) : Walk :=
  let w := { w with visited := id :: w.visited }
  match id.codec with
  | .node => { w with expanding := some id }
  | .raw => { w with count := w.count + 1 }

/-- Goes on by at most one access to the store. -/
def step (w : Walk) : ObjectStore.Op Walk :=
  match w.expanding, w.pending with
  | some id, _ => return w.expand (← ObjectStore.readNode id)
  | none, [] => return w
  | none, id :: pending =>
    if id ∈ w.visited then return { w with pending }
    else do
      if ← ObjectStore.contains id then return { w with pending }.visit id
      else throw (.notFound id)

/-! ### Walks end -/

/-- Stored ids that are not visited yet. -/
def unvisited (w : Walk) (s : ObjectStore) : List ContentId :=
  s.blockIds.filter fun id => decide (id ∉ w.visited)

/-- What becomes less with each step: the unvisited ids, then the node that is read, then the
stack. -/
def remaining (w : Walk) (s : ObjectStore) : Nat × Nat × Nat :=
  ((w.unvisited s).length, w.expanding.toList.length, w.pending.length)

/-- The order in which walks become less. -/
abbrev Less : Nat × Nat × Nat → Nat × Nat × Nat → Prop :=
  Prod.Lex (· < ·) (Prod.Lex (· < ·) (· < ·))

theorem length_unvisited_visit {w : Walk} {s : ObjectStore} {id : ContentId}
    (stored : id ∈ s.blockIds) (new : id ∉ w.visited) :
    ((w.visit id).unvisited s).length < (w.unvisited s).length := by
  have visited : (w.visit id).visited = id :: w.visited := by
    unfold visit; split <;> rfl
  have : (w.visit id).unvisited s = (w.unvisited s).filter fun i => decide (i ≠ id) := by
    simp only [unvisited, visited, List.filter_filter, List.mem_cons, not_or]
    congr 1
    funext i
    by_cases hi : i = id <;> simp [hi]
  rw [this]
  have hm : id ∈ w.unvisited s := by simp [unvisited, stored, new]
  have hs := List.length_filter_lt_length_iff_exists (p := fun i => decide (i ≠ id))
    (l := w.unvisited s)
  exact hs.2 ⟨id, hm, by simp⟩

theorem remaining_expand (w : Walk) (node : Node) (id : ContentId) (s s' : ObjectStore)
    (reading : w.expanding = some id) (same : s'.blockIds = s.blockIds) :
    Less ((w.expand node).remaining s') (w.remaining s) := by
  have h : (w.expand node).unvisited s' = w.unvisited s := by
    rw [unvisited, unvisited, same]; rfl
  rw [remaining, remaining, h]
  refine Prod.Lex.right _ (Prod.Lex.left _ _ ?_)
  simp [expand, reading]

theorem remaining_step {w w' : Walk} {s s' : ObjectStore} (more : ¬ w.isOver)
    (h : w.step s = (.ok w', s')) : Less (w'.remaining s') (w.remaining s) := by
  obtain ⟨visited, pending, count, expanding⟩ := w
  cases expanding with
  | some id =>
    obtain ⟨node, t, hr, hw⟩ := ObjectStore.bind_eq_ok_iff.1 h
    have same := ObjectStore.keeps_blockIds_readNode id s
    rw [hr] at same
    cases hw
    exact remaining_expand _ node id s _ rfl same
  | none =>
    cases pending with
    | nil => simp [isOver] at more
    | cons id pending =>
      simp only [step] at h
      split at h
      · cases h
        exact Prod.Lex.right _ (Prod.Lex.right _ (Nat.lt_succ_self _))
      · next new =>
        obtain ⟨found, t, hr, hw⟩ := ObjectStore.bind_eq_ok_iff.1 h
        have same := ObjectStore.keeps_blockIds_contains id s
        rw [hr] at same
        cases found with
        | false => cases hw
        | true =>
          cases hw
          have stored := ObjectStore.mem_blockIds_of_contains (congrArg Prod.fst hr)
          have hlt := length_unvisited_visit (w := ⟨visited, pending, count, none⟩) stored new
          refine Prod.Lex.left _ _ ?_
          simp only [unvisited, same] at hlt ⊢
          exact hlt

/-- Goes on to the end and counts the visited ids. -/
def run (w : Walk) (s : ObjectStore) : Except ObjectError Nat × ObjectStore :=
  if _ended : w.isOver then (.ok w.count, s)
  else
    match _next : w.step s with
    | (.ok w', s') => w'.run s'
    | (.error e, s') => (.error e, s')
termination_by w.remaining s
decreasing_by exact remaining_step _ended _next

theorem run_of_isOver {w : Walk} (ended : w.isOver) (s : ObjectStore) :
    w.run s = (.ok w.count, s) := by
  rw [run, dif_pos ended]

theorem run_of_step {w w' : Walk} {s s' : ObjectStore} (more : ¬ w.isOver)
    (h : w.step s = (.ok w', s')) : w.run s = w'.run s' := by
  rw [run, dif_neg more]
  split
  · next h' => cases h.symm.trans h'; rfl
  · next h' => cases h.symm.trans h'

theorem run_of_error {w : Walk} {s s' : ObjectStore} {e : ObjectError} (more : ¬ w.isOver)
    (h : w.step s = (.error e, s')) : w.run s = (.error e, s') := by
  rw [run, dif_neg more]
  split
  · next h' => cases h.symm.trans h'
  · next h' => cases h.symm.trans h'; rfl

end Walk

end Relay
