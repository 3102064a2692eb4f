import Relay.Instant.Basic

/-!
# The notification queue

Deliveries submit the client to be told. One worker takes the clients in order and hands each to
a sink, for at most a set time. Submitting never waits: a client that finds the queue full or
closed is dropped. A worker that is told to stop closes the queue, hands over what is in it and
leaves with the number of attempts it has made.

Time is counted in milliseconds and passes only in `advance` and `drain`; all else the worker
does at one moment.
-/

namespace Relay

/-- How an attempt to tell a client ended. -/
inductive Outcome where
  | succeeded
  | failed
  /-- The sink broke, and the worker with it. -/
  | broke
  deriving DecidableEq

/-- What clients are handed to. An attempt has a ticket by which the sink knows it. -/
structure Sink (σ τ : Type) where
  /-- Starts to tell a client. -/
  start : σ → String → τ × σ
  /-- Goes on with an attempt that has lasted so long, and says how it ended if it has. -/
  poll : σ → τ → Nat → Option Outcome × σ
  /-- After how long an attempt ends by itself, if time alone ends it. -/
  lasts : σ → τ → Option Nat
  /-- Gives up an attempt. -/
  abandon : σ → τ → σ

inductive WorkerPhase (τ : Type) where
  | idle
  /-- Has taken a client off the queue. -/
  | taken (client : String) (since : Nat)
  | telling (client : String) (ticket : τ) (since : Nat)
  /-- Has left after its last attempt. -/
  | left
  | broken

/-- What an observer of the worker sees. -/
inductive Report where
  | started (client : String)
  | ended (client : String) (outcome : Outcome)
  | abandoned (client : String)
  deriving DecidableEq

structure Notifier (τ : Type) where
  capacity : Nat
  /-- The longest an attempt may take. -/
  timeout : Nat
  queue : List String := []
  /-- The queue takes submissions. -/
  accepting : Bool := true
  /-- Someone can still submit. -/
  held : Bool := true
  /-- The worker has been told to stop. -/
  stopping : Bool := false
  phase : WorkerPhase τ := .idle
  attempted : Nat := 0
  now : Nat := 0

/-- What comes of one or more steps of the worker. -/
structure Turn (σ τ : Type) where
  reports : List Report := []
  notifier : Notifier τ
  state : σ
  /-- There was a step to do. -/
  moved : Bool := true

/-- Puts earlier reports in front. -/
def Turn.after {σ τ : Type} (turn : Turn σ τ) (earlier : List Report) : Turn σ τ :=
  { turn with reports := earlier ++ turn.reports }

namespace Notifier

variable {σ τ : Type}

/-- Submits a client; says whether the queue took it. -/
def submit (n : Notifier τ) (client : String) : Bool × Notifier τ :=
  if n.accepting ∧ n.held ∧ n.queue.length < n.capacity then
    (true, { n with queue := n.queue ++ [client] })
  else (false, n)

/-- No one can submit any more. -/
def release (n : Notifier τ) : Notifier τ := { n with held := false }

def stop (n : Notifier τ) : Notifier τ := { n with stopping := true }

def isOver (n : Notifier τ) : Bool :=
  match n.phase with
  | .left | .broken => true
  | _ => false

def endAttempt (n : Notifier τ) : Notifier τ :=
  { n with phase := .idle, attempted := n.attempted + 1 }

/-- The worker's next step. A worker that has to wait does not move, but the sink it waits for
may have. -/
def step (sink : Sink σ τ) (n : Notifier τ) (s : σ) : Turn σ τ :=
  match n.phase with
  | .idle =>
    if n.stopping ∧ n.accepting then { notifier := { n with accepting := false }, state := s }
    else
      match n.queue with
      | client :: rest =>
        { notifier := { n with queue := rest, phase := .taken client n.now }, state := s }
      | [] =>
        if n.accepting ∧ n.held then { notifier := n, state := s, moved := false }
        else { notifier := { n with phase := .left }, state := s }
  | .taken client since =>
    let (ticket, s) := sink.start s client
    { reports := [.started client], state := s
      notifier := { n with phase := .telling client ticket since } }
  | .telling client ticket since =>
    match sink.poll s ticket (n.now - since) with
    | (some .broke, s) =>
      { reports := [.ended client .broke], state := s
        notifier := { n with phase := .broken, accepting := false, queue := [] } }
    | (some outcome, s) =>
      { reports := [.ended client outcome], notifier := n.endAttempt, state := s }
    | (none, s) =>
      if since + n.timeout ≤ n.now then
        { reports := [.abandoned client], notifier := n.endAttempt
          state := sink.abandon s ticket }
      else { notifier := n, state := s, moved := false }
  | .left | .broken => { notifier := n, state := s, moved := false }

/-- Up to `fuel` steps, as long as there is one to do. -/
def steps (sink : Sink σ τ) (n : Notifier τ) (s : σ) : Nat → Turn σ τ
  | 0 => { notifier := n, state := s, moved := false }
  | fuel + 1 =>
    let turn := n.step sink s
    if turn.moved then (turn.notifier.steps sink turn.state fuel).after turn.reports else turn

/-- Lets the worker go on until it has to wait. Each client takes three steps at most, closing
and leaving one each. -/
def settle (sink : Sink σ τ) (n : Notifier τ) (s : σ) : Turn σ τ :=
  n.steps sink s (3 * n.queue.length + 5)

/-- When the present attempt ends, by itself or by the time limit. -/
def due? (sink : Sink σ τ) (n : Notifier τ) (s : σ) : Option Nat :=
  match n.phase with
  | .telling _ ticket since =>
    match sink.lasts s ticket with
    | some length => some (since + min length n.timeout)
    | none => some (since + n.timeout)
  | _ => none

/-- Lets time pass from one end of an attempt to the next, up to `target` if there is one. -/
def pass (sink : Sink σ τ) (target : Option Nat) (n : Notifier τ) (s : σ) : Nat → Turn σ τ
  | 0 => { notifier := n, state := s, moved := false }
  | fuel + 1 =>
    let turn := n.settle sink s
    match turn.notifier.due? sink turn.state with
    | none => turn
    | some due =>
      if target.all (due ≤ ·) then
        let n := { turn.notifier with now := max turn.notifier.now due }
        (pass sink target n turn.state fuel).after turn.reports
      else turn

/-- Lets `duration` pass. -/
def advance (sink : Sink σ τ) (duration : Nat) (n : Notifier τ) (s : σ) : Turn σ τ :=
  let target := n.now + duration
  let turn := pass sink (some target) n s (n.queue.length + 3)
  { turn with notifier := { turn.notifier with now := target } }

/-- Tells the worker to stop and lets time pass until it has left. -/
def drain (sink : Sink σ τ) (n : Notifier τ) (s : σ) : Turn σ τ :=
  pass sink none n.stop s (n.queue.length + 3)

/-- What the worker leaves with; a broken one leaves nothing. -/
def total (n : Notifier τ) : Nat :=
  match n.phase with
  | .broken => 0
  | _ => n.attempted

end Notifier

/-! ### Sinks -/

/-- An attempt of a set length and outcome. -/
structure TimedAttempt where
  length : Nat
  outcome : Outcome

/-- A sink where each client's attempts take a set time. -/
def Sink.timed (attempt : String → TimedAttempt) : Sink Unit TimedAttempt where
  start := fun s client => (attempt client, s)
  poll := fun s ticket lasted => (if ticket.length ≤ lasted then some ticket.outcome else none, s)
  lasts := fun _ ticket => some ticket.length
  abandon := fun s _ => s

end Relay
