import Relay.Cafe.Basic
import Relay.Content.Walk

/-!
# Deliveries

A message for a client is an envelope with a thread update. Its node and the block that is
shipped along are stored, all that the node leads to must be there, then the envelope itself is
stored, put into the inbox, and the client is told. A delivery goes in steps, each with one
access to the content store or the records at most, so that other requests can come between; a
failing step ends it and keeps what was stored. What is meant for an unknown client is dropped.
-/

namespace Relay

structure Delivery where
  sender : String
  recipient : String
  body : Bytes
  deriving DecidableEq

namespace Delivery

inductive Outcome where
  /-- The message is in the inbox, under this id. -/
  | queued (id : ContentId)
  /-- The recipient is no client, and nothing was stored. -/
  | dropped
  deriving DecidableEq

/-- What a delivery does next. -/
inductive Stage where
  | lookUp
  | pinNode (update : ThreadUpdate)
  | readNode (update : ThreadUpdate) (id : ContentId)
  | pinBlock (update : ThreadUpdate) (node : Node)
  | walk (w : Walk)
  | pinBody
  | record (id : ContentId)
  | announce (id : ContentId)
  | finished (result : Except RequestError Outcome)

namespace Stage

def result? : Stage → Option (Except RequestError Outcome)
  | finished r => some r
  | _ => none

def refused (e : RequestError) : Stage := finished (.error e)

/-- How many stages are still to come. -/
def rank : Stage → Nat
  | lookUp => 8
  | pinNode _ => 7
  | readNode _ _ => 6
  | pinBlock _ _ => 5
  | walk _ => 4
  | pinBody => 3
  | record _ => 2
  | announce _ => 1
  | finished _ => 0

end Stage

/-- The update that a message carries. -/
def update (d : Delivery) : Except Envelope.Fault ThreadUpdate := do
  (← Envelope.ofBytes d.body).threadUpdate

/-- The entry for the recipient's inbox. -/
def message (d : Delivery) (now : Instant) (id : ContentId) : Message :=
  { id := id.text, peer := d.sender, client := d.recipient, date := now }

/-- Enters the stage that follows an operation on the content store. -/
def after {α : Type} (op : ObjectStore.Op α) (next : α → Stage) (c : Cafe) : Stage × Cafe :=
  match c.withContent op with
  | (.ok a, c) => (next a, c)
  | (.error e, c) => (.refused (Cafe.ofContent e), c)

def step (d : Delivery) (now : Instant) (stage : Stage) (c : Cafe) : Stage × Cafe :=
  match stage with
  | .lookUp =>
    match c.client? d.recipient with
    | .error e => (.refused (.ofRecords e), c)
    | .ok none => (.finished (.ok .dropped), c)
    | .ok (some _) =>
      match d.update with
      | .error fault => (.refused (.malformedInput fault.message), c)
      | .ok update => (.pinNode update, c)
  | .pinNode update => after (ObjectStore.pinAsNode update.node) (.readNode update) c
  | .readNode update id => after (ObjectStore.readNode id) (.pinBlock update) c
  | .pinBlock update node =>
    match update.block with
    | none => (.walk (.ofNode node none), c)
    | some block =>
      after (ObjectStore.pinAsBytes block) (fun id => .walk (.ofNode node (some id))) c
  | .walk w => if w.isOver then (.pinBody, c) else after w.step .walk c
  | .pinBody => after (ObjectStore.pinAsBytes d.body) .record c
  | .record id =>
    match c.putMessage (d.message now id) with
    | .ok c => (.announce id, c)
    | .error e => (.refused (.ofRecords e), c)
  | .announce id => (.finished (.ok (.queued id)), c.submit d.recipient)
  | .finished r => (.finished r, c)

/-! ### Deliveries end -/

/-- What becomes less with each step: the stages to come, and in a walk what remains of it. -/
def remaining (stage : Stage) (c : Cafe) : Nat × Nat × Nat × Nat :=
  match stage with
  | .walk w => (stage.rank, w.remaining c.content)
  | _ => (stage.rank, 0, 0, 0)

/-- The order in which deliveries become less. -/
abbrev Less : Nat × Nat × Nat × Nat → Nat × Nat × Nat × Nat → Prop :=
  Prod.Lex (· < ·) Walk.Less

theorem less_of_rank {stage stage' : Stage} {c c' : Cafe} (h : stage'.rank < stage.rank) :
    Less (remaining stage' c') (remaining stage c) := by
  unfold remaining
  split <;> split <;> exact Prod.Lex.left _ _ h

theorem rank_after {α : Type} (op : ObjectStore.Op α) (next : α → Stage) (c : Cafe) (n : Nat)
    (h : ∀ a, (next a).rank ≤ n) : (after op next c).1.rank ≤ n := by
  unfold after
  split
  · exact h _
  · exact Nat.zero_le _

theorem remaining_walk (d : Delivery) (now : Instant) (w : Walk) (c : Cafe) :
    Less (remaining (d.step now (.walk w) c).1 (d.step now (.walk w) c).2)
      (remaining (.walk w) c) := by
  by_cases ended : w.isOver
  · simp only [step, ended, if_true]
    exact less_of_rank (Nat.lt_succ_self 3)
  · simp only [step, ended, after, Cafe.withContent]
    cases hw : w.step c.content with
    | mk r content =>
      cases r with
      | ok w' => exact Prod.Lex.right _ (Walk.remaining_step ended hw)
      | error e => exact less_of_rank (by simp [Stage.refused, Stage.rank])

theorem remaining_step (d : Delivery) (now : Instant) (stage : Stage) (c : Cafe)
    (more : stage.result? = none) :
    Less (remaining (d.step now stage c).1 (d.step now stage c).2) (remaining stage c) := by
  cases stage with
  | walk w => exact remaining_walk d now w c
  | finished r => cases more
  | lookUp =>
    refine less_of_rank ?_
    simp only [step]
    split
    · exact Nat.succ_pos _
    · exact Nat.succ_pos _
    · split <;> simp [Stage.refused, Stage.rank]
  | pinNode update =>
    exact less_of_rank (Nat.lt_succ_of_le (rank_after _ _ _ 6 fun _ => Nat.le_refl _))
  | readNode update id =>
    exact less_of_rank (Nat.lt_succ_of_le (rank_after _ _ _ 5 fun _ => Nat.le_refl _))
  | pinBlock update node =>
    refine less_of_rank (Nat.lt_succ_of_le ?_)
    simp only [step]
    split
    · exact Nat.le_refl _
    · exact rank_after _ _ _ 4 fun _ => Nat.le_refl _
  | pinBody =>
    exact less_of_rank (Nat.lt_succ_of_le (rank_after _ _ _ 2 fun _ => Nat.le_refl _))
  | record id =>
    refine less_of_rank ?_
    simp only [step]
    split <;> simp [Stage.refused, Stage.rank]
  | announce id => exact less_of_rank (Nat.succ_pos _)

/-- All steps from a stage on, with nothing between them. -/
def run (d : Delivery) (now : Instant) (stage : Stage) (c : Cafe) :
    Except RequestError Outcome × Cafe :=
  match _more : stage.result? with
  | some r => (r, c)
  | none => d.run now (d.step now stage c).1 (d.step now stage c).2
termination_by remaining stage c
decreasing_by exact remaining_step d now stage c _more

@[simp] theorem run_finished (d : Delivery) (now : Instant)
    (r : Except RequestError Outcome) (c : Cafe) : d.run now (.finished r) c = (r, c) := by
  rw [run]; rfl

theorem run_step (d : Delivery) (now : Instant) (stage : Stage) (c : Cafe) :
    d.run now (d.step now stage c).1 (d.step now stage c).2 = d.run now stage c := by
  cases stage with
  | finished r => rfl
  | _ =>
    conv => rhs; rw [run]
    rfl

end Delivery

/-- Delivers a message at once. -/
def Cafe.deliver (now : Instant) (d : Delivery) (c : Cafe) :
    Except RequestError Delivery.Outcome × Cafe :=
  d.run now .lookUp c

end Relay
