import Relay.Cafe.Watch
import Relay.Proofs.Cafe.Steps

/-!
# Deliveries, watchers and the worker

Requests, watch requests, readers and the notification worker go on at the same time, each in its
own steps. The worker and a watch request, with nothing in between, do what `Cafe` says they do
(`Exchange.works_settle`, `Exchange.advances_watch`).
-/

namespace Relay

/-! ### What requests do to watchers -/

/-- A step of a request submits a client whose message is in the inbox, or leaves the watchers and
the worker alone. -/
inductive Task.Submits (t : Task) (now : Instant) (c : Cafe) : Prop
  | submit (d : Delivery) (id : ContentId) (ready : t = .deliver d (.announce id))
      (goes : t.step now c = (.deliver d (.finished (.ok (.queued id))), c.submit d.recipient))
  | quiet (other : ∀ d id, t ≠ .deliver d (.announce id))
      (watchers : (t.step now c).2.watchers = c.watchers)
      (notifier : (t.step now c).2.notifier = c.notifier)

theorem Task.submits_step (t : Task) (now : Instant) (c : Cafe) : Submits t now c := by
  cases moves_step t now c with
  | put d id c' ready done goes =>
    subst ready
    apply Submits.quiet (by simp)
    · rw [goes, putMessage_eq_ok done]
    · rw [goes, putMessage_eq_ok done]
  | submit d id ready goes => exact .submit d id ready goes
  | store content silent changes goes =>
    exact .quiet silent.other (by rw [goes]) (by rw [goes])
  | write records silent messages goes =>
    exact .quiet silent.other (by rw [goes]) (by rw [goes])

/-! ### The exchange -/

/-- The request at a place has submitted a client, and the queue took it. -/
structure Submission where
  place : Nat
  client : String
  deriving DecidableEq

structure Exchange where
  traffic : Traffic
  /-- What the watch requests do next, in the order in which they came. -/
  watches : List (String × Watch.Stage) := []
  /-- The submissions that the queue has taken, in order. -/
  accepted : List Submission := []
  /-- What readers have taken from their subscriptions. -/
  received : List (SubscriptionId × Notice) := []

namespace Exchange

inductive Event where
  | request (e : Traffic.Event)
  | watch (client : String)
  /-- The watch request that came at a place does its next step at an instant. -/
  | advance (place : Nat) (now : Instant)
  | receive (id : SubscriptionId)
  | close (id : SubscriptionId)
  /-- The worker does its next step, if it has one. -/
  | work (now : Instant)
  | pass (duration : Nat)
  | stop
  /-- No one can submit any more. -/
  | release

def start (config : Config) : Exchange := { traffic := .start config }

def cafe (σ : Exchange) : Cafe := σ.traffic.cafe

def withCafe (σ : Exchange) (c : Cafe) : Exchange :=
  { σ with traffic := { σ.traffic with cafe := c } }

def submission? (σ : Exchange) : Traffic.Event → Option Submission
  | .advance place _ =>
    match σ.traffic.tasks[place]? with
    | some (.deliver d (.announce _)) =>
      if (σ.cafe.notifier.submit d.recipient).1 then some ⟨place, d.recipient⟩ else none
    | _ => none
  | .arrive _ | .disturb _ _ _ => none

def worked (σ : Exchange) (now : Instant) : Cafe :=
  σ.cafe.afterTurn (σ.cafe.notifier.step (Watchers.sink now) σ.cafe.watchers)

def step (σ : Exchange) : Event → Exchange
  | .request e =>
    { σ with traffic := σ.traffic.step e, accepted := σ.accepted ++ (σ.submission? e).toList }
  | .watch client => { σ with watches := σ.watches ++ [(client, .check)] }
  | .advance place now =>
    match σ.watches[place]? with
    | some (client, stage) =>
      let (stage, c) := Watch.step client now stage σ.cafe
      { σ.withCafe c with watches := σ.watches.set place (client, stage) }
    | none => σ
  | .receive id =>
    match σ.cafe.receive id with
    | some (.notice n, c) => { σ.withCafe c with received := σ.received ++ [(id, n)] }
    | _ => σ
  | .close id => σ.withCafe (σ.cafe.unsubscribe id)
  | .work now => σ.withCafe (σ.worked now)
  | .pass duration =>
    let n := σ.cafe.notifier
    σ.withCafe { σ.cafe with notifier := { n with now := n.now + duration } }
  | .stop => σ.withCafe { σ.cafe with notifier := σ.cafe.notifier.stop }
  | .release => σ.withCafe { σ.cafe with notifier := σ.cafe.notifier.release }

def run : Exchange → List Event → Exchange
  | σ, [] => σ
  | σ, e :: rest => run (σ.step e) rest

/-! ### The worker and a watch request alone -/

theorem work_steps (σ : Exchange) (now : Instant) (fuel : Nat) :
    ∃ n, σ.run (List.replicate n (.work now)) = σ.withCafe (σ.cafe.afterTurn
      (σ.cafe.notifier.steps (Watchers.sink now) σ.cafe.watchers fuel)) := by
  induction fuel generalizing σ with
  | zero => exact ⟨0, rfl⟩
  | succ fuel ih =>
    rw [Notifier.steps]
    split
    · obtain ⟨n, ends⟩ := ih (σ.step (.work now))
      exact ⟨n + 1, ends⟩
    · exact ⟨1, rfl⟩

theorem works_settle (σ : Exchange) (now : Instant) :
    ∃ n, σ.run (List.replicate n (.work now)) = σ.withCafe (σ.cafe.settle now) :=
  σ.work_steps now _

theorem advances_watch (σ : Exchange) (client : String) (now : Instant) :
    ∃ n, ((σ.step (.watch client)).run (List.replicate n (.advance σ.watches.length now))).cafe =
      (σ.cafe.watch now client).2 := by
  have goes : ∀ (stage : Watch.Stage) (c : Cafe) (σ : Exchange) (place : Nat),
      σ.watches[place]? = some (client, stage) → σ.cafe = c →
      ∃ n, (σ.run (List.replicate n (.advance place now))).cafe =
        (Watch.run client now stage c).2 := by
    intro stage c
    fun_induction Watch.run client now stage c with
    | case1 stage c r ended =>
      intro σ place there same
      exact ⟨0, same⟩
    | case2 stage c more ih =>
      intro σ place there same
      subst same
      have inside := (List.getElem?_eq_some_iff.1 there).1
      obtain ⟨n, ends⟩ := ih (σ.step (.advance place now)) place
        (by simp only [step, there]; exact List.getElem?_set_self inside)
        (by simp only [step, there]; rfl)
      exact ⟨n + 1, ends⟩
  exact goes .check σ.cafe _ _ List.getElem?_concat_length rfl

end Exchange

end Relay
