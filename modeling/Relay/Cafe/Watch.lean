import Relay.Cafe.Basic

/-!
# Watch requests

A client that asks to watch its inbox is subscribed first and its inbox listed after, so that a
message that comes in between is seen by the listing or by the subscription. A client that has
messages waiting is told at once. If the inbox cannot be listed the new subscription is dropped
again.
-/

namespace Relay

namespace Watch

/-- What a watch request does next. -/
inductive Stage where
  | check
  | subscribe
  | list (id : SubscriptionId)
  | push (id : SubscriptionId)
  | finished (result : Except RequestError SubscriptionId)

/-- One step of the request of a client. -/
def step (client : String) (now : Instant) (stage : Stage) (c : Cafe) : Stage × Cafe :=
  match stage with
  | .check =>
    match c.registered client with
    | .ok _ => (.subscribe, c)
    | .error e => (.finished (.error e), c)
  | .subscribe =>
    let (id, c) := c.subscribe client
    (.list id, c)
  | .list id =>
    match c.inbox client with
    | .ok [] => (.finished (.ok id), c)
    | .ok (_ :: _) => (.push id, c)
    | .error e => (.finished (.error e), c.unsubscribe id)
  | .push id => (.finished (.ok id), c.push id { client, date := now })
  | .finished r => (.finished r, c)

def Stage.result? : Stage → Option (Except RequestError SubscriptionId)
  | finished r => some r
  | _ => none

/-- How many stages are still to come. -/
def Stage.rank : Stage → Nat
  | check => 4
  | subscribe => 3
  | list _ => 2
  | push _ => 1
  | finished _ => 0

theorem rank_step (client : String) (now : Instant) (stage : Stage) (c : Cafe)
    (more : stage.result? = none) : (step client now stage c).1.rank < stage.rank := by
  cases stage with
  | finished r => cases more
  | check => simp only [step]; split <;> simp [Stage.rank]
  | subscribe => exact Nat.lt_succ_self 2
  | list id => simp only [step]; split <;> simp [Stage.rank]
  | push id => exact Nat.lt_succ_self 0

/-- All steps from a stage on, with nothing between them. -/
def run (client : String) (now : Instant) (stage : Stage) (c : Cafe) :
    Except RequestError SubscriptionId × Cafe :=
  match _more : stage.result? with
  | some r => (r, c)
  | none => run client now (step client now stage c).1 (step client now stage c).2
termination_by stage.rank
decreasing_by exact rank_step client now stage c _more

@[simp] theorem run_finished (client : String) (now : Instant)
    (r : Except RequestError SubscriptionId) (c : Cafe) :
    run client now (.finished r) c = (r, c) := by
  rw [run]; rfl

theorem run_step (client : String) (now : Instant) (stage : Stage) (c : Cafe) :
    run client now (step client now stage c).1 (step client now stage c).2 =
      run client now stage c := by
  cases stage with
  | finished r => rfl
  | _ =>
    conv => rhs; rw [run]
    rfl

end Watch

/-- Subscribes a client to its inbox at once. -/
def Cafe.watch (now : Instant) (client : String) (c : Cafe) :
    Except RequestError SubscriptionId × Cafe :=
  Watch.run client now .check c

end Relay
