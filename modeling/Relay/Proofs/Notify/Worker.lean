import Relay.Notify.WatchSink
import Relay.Proofs.Notify.Connections

/-!
# Steps of the notification worker

The clients that are still to be told stand in a lane: the one in hand, then the queue. A step of
the worker over the watch connections leaves the lane as it is or ends the attempt at its front
(`Notifier.works_step`). This worker does not break.
-/

namespace Relay

namespace Notifier

variable {τ : Type}

/-- The client that the worker has taken off the queue. -/
def inHand (n : Notifier τ) : List String :=
  match n.phase with
  | .taken client _ | .telling client _ _ => [client]
  | _ => []

/-- The clients that are still to be told, in order. -/
def lane (n : Notifier τ) : List String := n.inHand ++ n.queue

theorem lane_of_taken {n : Notifier τ} {client : String} {since : Nat}
    (taken : n.phase = .taken client since) : n.lane = client :: n.queue := by
  rw [lane, inHand, taken]
  rfl

theorem lane_of_telling {n : Notifier τ} {client : String} {ticket : τ} {since : Nat}
    (telling : n.phase = .telling client ticket since) : n.lane = client :: n.queue := by
  rw [lane, inHand, telling]
  rfl

@[simp] theorem phase_submit (n : Notifier τ) (client : String) :
    (n.submit client).2.phase = n.phase := by
  unfold submit
  split <;> rfl

@[simp] theorem attempted_submit (n : Notifier τ) (client : String) :
    (n.submit client).2.attempted = n.attempted := by
  unfold submit
  split <;> rfl

theorem submit_eq_self {n : Notifier τ} {client : String} (full : (n.submit client).1 = false) :
    (n.submit client).2 = n := by
  unfold submit at full ⊢
  split at full
  · cases full
  · next refused => rw [if_neg refused]

theorem lane_submit (n : Notifier τ) (client : String) :
    (n.submit client).2.lane = n.lane ++ if (n.submit client).1 then [client] else [] := by
  unfold submit
  split
  · exact (List.append_assoc _ _ _).symm
  · exact (List.append_nil _).symm

/-- What one step of the worker does to it and to the connections. -/
inductive Works (date : Instant) (n : Notifier WatchTicket) (r : Watchers) :
    Notifier WatchTicket → Watchers → Prop
  | rests (n' : Notifier WatchTicket) (lane : n'.lane = n.lane)
      (attempted : n'.attempted = n.attempted)
      (apart : ∀ client ticket since, n'.phase ≠ .telling client ticket since) : Works date n r n' r
  | finds (client : String) (since : Nat) (send : SendId) (r' : Watchers)
      (taken : n.phase = .taken client since) (found : r.lookUp client date = some (send, r')) :
      Works date n r { n with phase := .telling client (some send) since } r'
  | misses (client : String) (since : Nat) (taken : n.phase = .taken client since)
      (missed : r.lookUp client date = none) :
      Works date n r { n with phase := .telling client none since } r
  | waits (client : String) (send : SendId) (since : Nat)
      (telling : n.phase = .telling client (some send) since) : Works date n r n (r.attempt send)
  | fails (client : String) (since : Nat) (telling : n.phase = .telling client none since) :
      Works date n r n.endAttempt r
  | ends (client : String) (send : SendId) (since : Nat)
      (telling : n.phase = .telling client (some send) since) :
      Works date n r n.endAttempt ((r.attempt send).forget send)

theorem works_step (date : Instant) (n : Notifier WatchTicket) (r : Watchers) :
    Works date n r (n.step (Watchers.sink date) r).notifier
      (n.step (Watchers.sink date) r).state := by
  cases phase : n.phase with
  | idle =>
    simp only [step, phase]
    split
    · refine .rests _ ?_ rfl (by simp)
      simp only [lane, inHand, phase]
    · cases queue : n.queue with
      | cons client rest =>
        refine .rests _ ?_ rfl (by simp)
        simp only [lane, inHand, phase, queue]
        rfl
      | nil =>
        dsimp only
        split
        · exact .rests _ rfl rfl (by simp [phase])
        · refine .rests _ ?_ rfl (by simp)
          simp only [lane, inHand, phase, queue]
  | taken client since =>
    simp only [step, phase, Watchers.sink]
    cases found : r.lookUp client date with
    | none => exact .misses client since phase found
    | some p => exact .finds client since p.1 p.2 phase found
  | telling client ticket since =>
    cases ticket with
    | none =>
      simp only [step, phase, Watchers.sink]
      exact .fails client since phase
    | some send =>
      simp only [step, phase, Watchers.sink]
      cases ended : (r.attempt send).result? send with
      | some result =>
        cases result with
        | ok done => exact .ends client send since phase
        | error e => exact .ends client send since phase
      | none =>
        dsimp only
        split
        · exact .ends client send since phase
        · exact .waits client send since phase
  | left =>
    simp only [step, phase]
    exact .rests _ rfl rfl (by simp [phase])
  | broken =>
    simp only [step, phase]
    exact .rests _ rfl rfl (by simp [phase])

end Notifier

end Relay
