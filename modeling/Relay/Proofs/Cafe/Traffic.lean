import Relay.Proofs.Cafe.Rejection

/-!
# Interleaved requests

Requests that the relay works on at the same time, each cut into its calls of the content store
and the mailbox. A call of one request may come between any two of another, file steps may fail,
a lock may be poisoned, and a request may never go on. A request with nothing in between does what
`Cafe` says it does (`Order.steps_task`).
-/

namespace Relay

/-! ### Requests in steps -/

/-- What a request does next. -/
inductive Task where
  | deliver (d : Delivery) (stage : Delivery.Stage)
  | keep (bytes : Bytes)
  /-- What could not be stored as a node is stored as bytes. -/
  | keepRaw (bytes : Bytes)
  | release (id : ContentId)
  /-- An object that was found pinned loses its pin. -/
  | unpin (id : ContentId)
  | putThread (client thread : String) (ciphertext : Bytes)
  | writeThread (s : Snapshot)
  | dropThread (client thread : String)
  | eraseThread (client thread : String)
  | register (client : Client)
  | done

namespace Task

/-- Takes over a change of the cafe, unless it was refused. -/
def change (c : Cafe) (changed : Except RecordError Cafe) : Task × Cafe :=
  match changed with
  | .ok c => (.done, c)
  | .error _ => (.done, c)

/-- One call of the content store or the mailbox. -/
def step (now : Instant) (t : Task) (c : Cafe) : Task × Cafe :=
  match t with
  | .deliver d stage =>
    let (stage, c) := d.step now stage c
    (.deliver d stage, c)
  | .keep bytes =>
    match c.withContent (ObjectStore.pinAsNode bytes) with
    | (.ok _, c) => (.done, c)
    | (.error _, c) => (.keepRaw bytes, c)
  | .keepRaw bytes => (.done, (c.withContent (ObjectStore.pinAsBytes bytes)).2)
  | .release id =>
    match c.withContent (ObjectStore.status id) with
    | (.ok mode, c) => (if mode.any PinMode.isPinned then .unpin id else .done, c)
    | (.error _, c) => (.done, c)
  | .unpin id => (.done, (c.withContent (ObjectStore.unpin id)).2)
  | .putThread client thread ciphertext =>
    match c.registered client with
    | .ok owner =>
      (.writeThread { id := thread, client := owner.id, ciphertext, updated := now }, c)
    | .error _ => (.done, c)
  | .writeThread s => change c (c.putSnapshot s)
  | .dropThread client thread =>
    match c.registered client with
    | .ok owner => (.eraseThread owner.id thread, c)
    | .error _ => (.done, c)
  | .eraseThread client thread => change c (c.dropSnapshot thread client)
  | .register client => change c (c.addClient client)
  | .done => (.done, c)

def steps (now : Instant) : Nat → Task × Cafe → Task × Cafe
  | 0, p => p
  | n + 1, p => steps now n (step now p.1 p.2)

/-- What a step hands to the content store to be stored. -/
def strings : Task → List Bytes
  | .deliver _ (.pinNode u) => [u.node]
  | .deliver _ (.pinBlock u _) => u.block.toList
  | .deliver d .pinBody => [d.body]
  | .keep bytes | .keepRaw bytes => [bytes]
  | _ => []

/-- The id whose pin a step takes away. -/
def unpins : Task → List ContentId
  | .unpin id => [id]
  | _ => []

end Task

/-! ### Requests -/

inductive Order where
  | keep (bytes : Bytes)
  | release (id : ContentId)
  | putThread (client thread : String) (ciphertext : Bytes)
  | dropThread (client thread : String)
  | deliver (d : Delivery)
  | register (client : Client)

def Order.task : Order → Task
  | .keep bytes => .keep bytes
  | .release id => .release id
  | .putThread client thread ciphertext => .putThread client thread ciphertext
  | .dropThread client thread => .dropThread client thread
  | .deliver d => .deliver d .lookUp
  | .register client => .register client

/-! ### A request alone -/

namespace Task

def isOver : Task → Bool
  | .deliver _ (.finished _) | .done => true
  | _ => false

theorem steps_keep (now : Instant) (bytes : Bytes) (c : Cafe) :
    steps now 2 (.keep bytes, c) = (.done, (c.keep bytes).2) := by
  simp only [steps, step, Cafe.keep]
  cases ran : c.withContent (ObjectStore.pinAsNode bytes) with
  | mk r c' => cases r <;> rfl

theorem steps_release (now : Instant) (id : ContentId) (c : Cafe) :
    steps now 2 (.release id, c) = (.done, (c.release id).2) := by
  simp only [steps, step, Cafe.release]
  cases ran : c.withContent (ObjectStore.status id) with
  | mk r c' =>
    cases r with
    | error e => rfl
    | ok mode =>
      dsimp only
      cases pinned : mode.any PinMode.isPinned <;> rfl

theorem steps_putThread (now : Instant) (client thread : String) (ciphertext : Bytes) (c : Cafe) :
    steps now 2 (.putThread client thread ciphertext, c) =
      (.done, (c.putThread now client thread ciphertext).toOption.getD c) := by
  simp only [steps, step, Cafe.putThread]
  cases c.registered client with
  | error e => rfl
  | ok owner =>
    simp only [bind, Except.bind, change]
    cases c.putSnapshot _ <;> rfl

theorem steps_dropThread (now : Instant) (client thread : String) (c : Cafe) :
    steps now 2 (.dropThread client thread, c) =
      (.done, (c.dropThread client thread).toOption.getD c) := by
  simp only [steps, step, Cafe.dropThread]
  cases c.registered client with
  | error e => rfl
  | ok owner =>
    simp only [bind, Except.bind, change]
    cases c.dropSnapshot _ _ <;> rfl

theorem steps_register (now : Instant) (client : Client) (c : Cafe) :
    steps now 1 (.register client, c) = (.done, (c.addClient client).toOption.getD c) := by
  simp only [steps, step, change]
  cases c.addClient client <;> rfl

/-- A delivery comes to its end, since its steps become less. -/
theorem steps_deliver (now : Instant) (d : Delivery) (stage : Delivery.Stage) (c : Cafe) :
    ∃ n, steps now n (.deliver d stage, c) =
      (.deliver d (.finished (d.run now stage c).1), (d.run now stage c).2) := by
  fun_induction d.run now stage c with
  | case1 stage c r ended =>
    cases stage with
    | finished r' => cases ended; exact ⟨0, rfl⟩
    | _ => cases ended
  | case2 stage c more ih =>
    obtain ⟨n, ends⟩ := ih
    exact ⟨n + 1, ends⟩

end Task

/-- What a request makes of a cafe when nothing comes between its steps. -/
def Order.alone (now : Instant) (c : Cafe) : Order → Cafe
  | .keep bytes => (c.keep bytes).2
  | .release id => (c.release id).2
  | .putThread client thread ciphertext =>
    (c.putThread now client thread ciphertext).toOption.getD c
  | .dropThread client thread => (c.dropThread client thread).toOption.getD c
  | .deliver d => (c.deliver now d).2
  | .register client => (c.addClient client).toOption.getD c

theorem Order.steps_task (o : Order) (now : Instant) (c : Cafe) :
    ∃ n t, Task.steps now n (o.task, c) = (t, o.alone now c) ∧ t.isOver := by
  cases o with
  | keep bytes => exact ⟨2, .done, Task.steps_keep now bytes c, rfl⟩
  | release id => exact ⟨2, .done, Task.steps_release now id c, rfl⟩
  | putThread client thread ciphertext =>
    exact ⟨2, .done, Task.steps_putThread now client thread ciphertext c, rfl⟩
  | dropThread client thread => exact ⟨2, .done, Task.steps_dropThread now client thread c, rfl⟩
  | register client => exact ⟨1, .done, Task.steps_register now client c, rfl⟩
  | deliver d =>
    obtain ⟨n, ends⟩ := Task.steps_deliver now d .lookUp c
    exact ⟨n, _, ends, rfl⟩

/-! ### Interleaved requests -/

structure Traffic where
  cafe : Cafe
  /-- What the requests do next, in the order in which they came. -/
  tasks : List Task := []
  /-- All that was handed to the content store to be stored. -/
  given : List Bytes := []
  /-- Ids whose pin was taken away by a request and that were not pinned since. -/
  released : List ContentId := []

namespace Traffic

inductive Event where
  | arrive (o : Order)
  /-- The request that came at a place does its next step at an instant. -/
  | advance (place : Nat) (now : Instant)
  /-- From here on file steps fail as told, and locks are poisoned or usable. -/
  | disturb (faults : List (Option IoError)) (registry mailbox : Bool)

/-- A cafe with nothing in it and nothing to do. -/
def start (config : Config) : Traffic := { cafe := .ofConfig config }

def isPinned (c : Cafe) (id : ContentId) : Bool := (c.content.disk.pins.get? id).isSome

/-- What becomes of the ids without their pin in a step from one cafe to another. -/
def releasedBy (t : Task) (c c' : Cafe) (released : List ContentId) : List ContentId :=
  (t.unpins.filter (isPinned c) ++ released).filter fun id => !isPinned c' id

def advance (σ : Traffic) (place : Nat) (now : Instant) (t : Task) : Traffic :=
  let (t', c) := t.step now σ.cafe
  { cafe := c
    tasks := σ.tasks.set place t'
    given := t.strings ++ σ.given
    released := releasedBy t σ.cafe c σ.released }

def disturb (faults : List (Option IoError)) (registry mailbox : Bool) (c : Cafe) : Cafe :=
  { c with
    content := { c.content with disk := { c.content.disk with faults } }
    registryPoisoned := registry
    mailboxPoisoned := mailbox }

def step (σ : Traffic) : Event → Traffic
  | .arrive o => { σ with tasks := σ.tasks ++ [o.task] }
  | .advance place now =>
    match σ.tasks[place]? with
    | some t => σ.advance place now t
    | none => σ
  | .disturb faults registry mailbox =>
    { σ with cafe := disturb faults registry mailbox σ.cafe }

def run : Traffic → List Event → Traffic
  | σ, [] => σ
  | σ, e :: rest => run (σ.step e) rest

/-- Only the request that did the step has gone on. -/
theorem tasks_advance {σ : Traffic} {place : Nat} {t : Task} (next : σ.tasks[place]? = some t)
    (now : Instant) (other : Nat) : (σ.advance place now t).tasks[other]? =
      if place = other then some (t.step now σ.cafe).1 else σ.tasks[other]? := by
  have inside : place < σ.tasks.length := (List.getElem?_eq_some_iff.1 next).1
  simp only [advance, List.getElem?_set, inside, if_true]

theorem isPinned_eq_true_iff {c : Cafe} {id : ContentId} :
    isPinned c id = true ↔ c.content.disk.pins.get? id ≠ none := by
  rw [isPinned, Option.isSome_iff_ne_none]

theorem mem_releasedBy {t : Task} {c c' : Cafe} {released : List ContentId} {id : ContentId} :
    id ∈ releasedBy t c c' released ↔
      (id ∈ t.unpins ∧ c.content.disk.pins.get? id ≠ none ∨ id ∈ released) ∧
        c'.content.disk.pins.get? id = none := by
  rw [releasedBy, List.mem_filter, List.mem_append, List.mem_filter, isPinned_eq_true_iff,
    Bool.not_eq_true', ← Bool.not_eq_true, isPinned_eq_true_iff, Decidable.not_not]

theorem given_subset_step (σ : Traffic) (e : Event) : σ.given ⊆ (σ.step e).given := by
  cases e with
  | arrive o => exact List.Subset.refl _
  | disturb faults registry mailbox => exact List.Subset.refl _
  | advance place now =>
    rw [step]
    split
    · exact List.subset_append_right _ _
    · exact List.Subset.refl _

theorem given_subset_run (σ : Traffic) (events : List Event) : σ.given ⊆ (σ.run events).given := by
  induction events generalizing σ with
  | nil => exact List.Subset.refl _
  | cons e rest ih => exact List.Subset.trans (given_subset_step σ e) (ih _)

end Traffic

end Relay
