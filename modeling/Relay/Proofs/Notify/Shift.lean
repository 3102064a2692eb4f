import Relay.Notify.WatchSink
import Relay.Proofs.Notify.Worker

/-!
# The shift of a notification worker

Submissions, the steps of the worker, the word to stop and the passing of time come in any order,
and what the sink works on may change at any time. At every moment the clients that the queue has
taken are those whose attempt is over, then the one in hand, then the queue, in the order in which
they were taken (`Shift.Accounted`). So a worker that has left has attempted each of them once
(`Shift.accepted_attempted`).
-/

namespace Relay

variable {σ τ : Type}

namespace Sink

/-- An attempt does not break the worker, and one that time alone ends has ended by then. -/
structure Reliable (sink : Sink σ τ) : Prop where
  whole : ∀ s client s' lasted, (sink.poll s' (sink.start s client).1 lasted).1 ≠ some .broke
  punctual : ∀ s ticket length lasted, sink.lasts s ticket = some length → length ≤ lasted →
    (sink.poll s ticket lasted).1 ≠ none

theorem reliable_timed {attempt : String → TimedAttempt}
    (whole : ∀ client, (attempt client).outcome ≠ .broke) : (timed attempt).Reliable where
  whole := by
    intro s client s' lasted broke
    simp only [timed] at broke
    split at broke
    · exact whole client (Option.some.inj broke)
    · cases broke
  punctual := by
    intro s ticket length lasted lasts late going
    simp only [timed, Option.some.injEq] at lasts going
    subst lasts
    rw [if_pos late] at going
    cases going

end Sink

theorem Watchers.reliable_sink (date : Instant) : (Watchers.sink date).Reliable where
  whole := by
    intro s client s' lasted
    simp only [Watchers.sink]
    split
    · simp
    · split <;> simp
  punctual := by
    intro s ticket length lasted lasts
    cases lasts

/-! ### Steps of a worker -/

namespace Notifier

def underWay (n : Notifier τ) : List String :=
  match n.phase with
  | .telling client _ _ => [client]
  | _ => []

/-- The clients that were not handed to the sink yet, in order. -/
def unhanded (n : Notifier τ) : List String :=
  match n.phase with
  | .taken client _ => client :: n.queue
  | _ => n.queue

theorem lane_eq (n : Notifier τ) : n.lane = n.underWay ++ n.unhanded := by
  unfold lane inHand underWay unhanded
  cases n.phase <;> rfl

def isClosed (n : Notifier τ) : Bool := !(n.accepting && n.held)

/-- Takes the next client off the queue, or leaves if none can come. A worker that was told to stop
may do this before it closes the queue. -/
def receive (n : Notifier τ) : Notifier τ :=
  match n.phase with
  | .idle =>
    match n.queue with
    | client :: rest => { n with queue := rest, phase := .taken client n.now }
    | [] => if n.isClosed then { n with phase := .left } else n
  | _ => n

variable {sink : Sink σ τ} {n : Notifier τ} {s : σ} {client : String}

theorem isClosed_iff : n.isClosed ↔ ¬(n.accepting ∧ n.held) := by
  unfold isClosed
  cases n.accepting <;> cases n.held <;> simp

theorem submit_eq_false_iff :
    (n.submit client).1 = false ↔ n.isClosed ∨ n.capacity ≤ n.queue.length := by
  unfold submit
  rw [isClosed_iff]
  split
  · next room => simp [room]
  · next refused =>
    simp only [true_iff]
    by_cases opened : n.accepting ∧ n.held
    · exact .inr (Nat.le_of_not_lt fun room => refused ⟨opened.1, opened.2, room⟩)
    · exact .inl opened

inductive Goes (sink : Sink σ τ) (n : Notifier τ) (s : σ) : Turn σ τ → Prop
  | closes (idle : n.phase = .idle) (told : n.stopping ∧ n.accepting) :
      Goes sink n s { notifier := { n with accepting := false }, state := s }
  | takes (client : String) (rest : List String) (idle : n.phase = .idle)
      (first : n.queue = client :: rest) :
      Goes sink n s
        { notifier := { n with queue := rest, phase := .taken client n.now }, state := s }
  | listens (idle : n.phase = .idle) (untold : ¬ n.stopping) :
      Goes sink n s { notifier := n, state := s, moved := false }
  | leaves (idle : n.phase = .idle) (empty : n.queue = []) (closed : n.isClosed) :
      Goes sink n s { notifier := { n with phase := .left }, state := s }
  | hands (client : String) (since : Nat) (taken : n.phase = .taken client since) :
      Goes sink n s
        { reports := [.started client], state := (sink.start s client).2
          notifier := { n with phase := .telling client (sink.start s client).1 since } }
  | ends (client : String) (ticket : τ) (since : Nat) (outcome : Outcome)
      (telling : n.phase = .telling client ticket since)
      (ended : (sink.poll s ticket (n.now - since)).1 = some outcome) (whole : outcome ≠ .broke) :
      Goes sink n s
        { reports := [.ended client outcome], notifier := n.endAttempt
          state := (sink.poll s ticket (n.now - since)).2 }
  | breaks (client : String) (ticket : τ) (since : Nat)
      (telling : n.phase = .telling client ticket since)
      (broke : (sink.poll s ticket (n.now - since)).1 = some .broke) :
      Goes sink n s
        { reports := [.ended client .broke]
          notifier := { n with phase := .broken, accepting := false, queue := [] }
          state := (sink.poll s ticket (n.now - since)).2 }
  | abandons (client : String) (ticket : τ) (since : Nat)
      (telling : n.phase = .telling client ticket since) :
      Goes sink n s
        { reports := [.abandoned client], notifier := n.endAttempt
          state := sink.abandon (sink.poll s ticket (n.now - since)).2 ticket }
  | waits (client : String) (ticket : τ) (since : Nat)
      (telling : n.phase = .telling client ticket since)
      (going : (sink.poll s ticket (n.now - since)).1 = none) (early : n.now < since + n.timeout) :
      Goes sink n s
        { notifier := n, state := (sink.poll s ticket (n.now - since)).2, moved := false }
  | rests (idle : n.isOver) : Goes sink n s { notifier := n, state := s, moved := false }

theorem goes_step (sink : Sink σ τ) (n : Notifier τ) (s : σ) : Goes sink n s (n.step sink s) := by
  unfold step
  split
  · next idle =>
    split
    · next told => exact .closes idle told
    · next untold =>
      split
      · next client rest queue => exact .takes client rest idle queue
      · next queue =>
        split
        · next more => exact .listens idle fun told => untold ⟨told, more.1⟩
        · next closed => exact .leaves idle queue (isClosed_iff.2 closed)
  · next client since taken => exact .hands client since taken
  · next client ticket since telling =>
    split
    · next state polled =>
      have goes := Goes.breaks client ticket since telling (congrArg Prod.fst polled)
      rwa [polled] at goes
    · next outcome state whole polled =>
      have goes := Goes.ends client ticket since outcome telling (congrArg Prod.fst polled) whole
      rwa [polled] at goes
    · next state polled =>
      split
      · have goes := @Goes.abandons _ _ sink n s client ticket since telling
        rwa [polled] at goes
      · next early =>
        have goes := Goes.waits client ticket since telling (congrArg Prod.fst polled)
          (Nat.not_le.1 early)
        rwa [polled] at goes
  · next left => exact .rests (by simp [isOver, left])
  · next broken => exact .rests (by simp [isOver, broken])

/-- More than the steps that the worker can do without a wait. -/
def toDo (n : Notifier τ) : Nat :=
  3 * n.queue.length + n.accepting.toNat +
    match n.phase with
    | .idle => 1
    | .taken _ _ => 3
    | .telling _ _ _ => 2
    | .left | .broken => 0

variable {turn : Turn σ τ}

theorem toDo_goes (h : Goes sink n s turn) (moved : turn.moved) :
    turn.notifier.toDo < n.toDo := by
  cases h with
  | closes idle told => simp [toDo, idle, told.2]
  | takes client rest idle first =>
    simp only [toDo, idle, first, List.length_cons]
    omega
  | leaves idle => simp [toDo, idle]
  | hands client since taken => simp [toDo, taken]
  | ends client ticket since outcome telling =>
    simp only [toDo, telling, endAttempt]
    omega
  | breaks client ticket since telling => simp [toDo, telling]
  | abandons client ticket since telling =>
    simp only [toDo, telling, endAttempt]
    omega
  | listens => cases moved
  | waits => cases moved
  | rests => cases moved

theorem stopping_goes (h : Goes sink n s turn) : turn.notifier.stopping = n.stopping := by
  cases h <;> rfl

theorem capacity_goes (h : Goes sink n s turn) : turn.notifier.capacity = n.capacity := by
  cases h <;> rfl

theorem closed_goes (h : Goes sink n s turn) (closed : n.isClosed) : turn.notifier.isClosed := by
  cases h with
  | closes => simp [isClosed]
  | breaks => simp [isClosed]
  | _ => exact closed

theorem lane_goes (h : Goes sink n s turn) : turn.notifier.lane.length ≤ n.lane.length := by
  cases h with
  | closes idle => exact Nat.le_of_eq (by simp [lane, inHand])
  | takes client rest idle first => simp [lane, inHand, idle, first]
  | leaves idle => simp [lane, inHand, idle]
  | hands client since taken => simp [lane, inHand, taken]
  | ends client ticket since outcome telling => simp [lane, inHand, telling, endAttempt]
  | breaks client ticket since telling => simp [lane, inHand]
  | abandons client ticket since telling => simp [lane, inHand, telling, endAttempt]
  | listens => exact Nat.le_refl _
  | waits => exact Nat.le_refl _
  | rests => exact Nat.le_refl _

/-! ### Workers that wait -/

/-- The attempt in hand ends with the next step. -/
def IsDue (sink : Sink σ τ) (n : Notifier τ) (s : σ) : Prop :=
  ∃ client ticket since, n.phase = .telling client ticket since ∧
    (since + n.timeout ≤ n.now ∨
      ∃ length, sink.lasts s ticket = some length ∧ since + length ≤ n.now)

theorem goes_of_due (reliable : sink.Reliable) (due : n.IsDue sink s) (h : Goes sink n s turn) :
    turn.moved ∧ turn.notifier.lane.length < n.lane.length := by
  obtain ⟨client, ticket, since, telling, late⟩ := due
  rw [lane_of_telling telling]
  cases h with
  | ends => exact ⟨rfl, Nat.lt_succ_self _⟩
  | breaks => exact ⟨rfl, Nat.succ_pos _⟩
  | abandons => exact ⟨rfl, Nat.lt_succ_self _⟩
  | waits client' ticket' since' telling' going early =>
    rw [telling] at telling'
    cases telling'
    rcases late with late | ⟨length, lasts, late⟩
    · omega
    · exact absurd going (reliable.punctual s ticket length _ lasts (by omega))
  | closes idle => rw [telling] at idle; cases idle
  | takes _ _ idle => rw [telling] at idle; cases idle
  | listens idle => rw [telling] at idle; cases idle
  | leaves idle => rw [telling] at idle; cases idle
  | hands _ _ taken => rw [telling] at taken; cases taken
  | rests idle => simp [isOver, telling] at idle

theorem exists_due (sink : Sink σ τ) (s : σ) {ticket : τ} {since : Nat}
    (telling : n.phase = .telling client ticket since) :
    ∃ due, n.due? sink s = some due ∧ IsDue sink { n with now := max n.now due } s := by
  unfold due?
  rw [telling]
  dsimp only
  cases lasts : sink.lasts s ticket with
  | none => exact ⟨_, rfl, client, ticket, since, rfl, .inl (Nat.le_max_right _ _)⟩
  | some length =>
    refine ⟨_, rfl, client, ticket, since, rfl, ?_⟩
    dsimp only
    rcases Nat.le_total length n.timeout with short | long
    · exact .inr ⟨length, lasts, by omega⟩
    · exact .inl (by omega)

/-- A worker that was told to stop goes on until it has left or waits for an attempt. -/
theorem steps_rest (sink : Sink σ τ) (s : σ) (told : n.stopping) {fuel : Nat}
    (enough : n.toDo < fuel) :
    (n.steps sink s fuel).notifier.stopping ∧
      (n.steps sink s fuel).notifier.lane.length ≤ n.lane.length ∧
      ((n.steps sink s fuel).notifier.isOver ∨ ∃ client ticket since,
        (n.steps sink s fuel).notifier.phase = .telling client ticket since) := by
  induction fuel generalizing n s with
  | zero => exact absurd enough (Nat.not_lt_zero _)
  | succ fuel ih =>
    have goes := goes_step sink n s
    have told' := (stopping_goes goes).trans told
    rw [steps]
    generalize n.step sink s = turn at *
    split
    · next moved =>
      obtain ⟨stopping, lane, rest⟩ := ih turn.state told' (by have := toDo_goes goes moved; omega)
      exact ⟨stopping, Nat.le_trans lane (lane_goes goes), rest⟩
    · next rests =>
      refine ⟨told', lane_goes goes, ?_⟩
      cases goes with
      | listens idle untold => exact absurd told untold
      | waits client ticket since telling => exact .inr ⟨client, ticket, since, telling⟩
      | rests idle => exact .inl idle
      | _ => exact absurd rfl rests

theorem settle_rest (reliable : sink.Reliable) (told : n.stopping) :
    (n.settle sink s).notifier.stopping ∧
      (n.settle sink s).notifier.lane.length ≤ n.lane.length ∧
      (n.IsDue sink s → (n.settle sink s).notifier.lane.length < n.lane.length) ∧
      ((n.settle sink s).notifier.isOver ∨ ∃ client ticket since,
        (n.settle sink s).notifier.phase = .telling client ticket since) := by
  have enough : n.toDo < 3 * n.queue.length + 5 := by
    have := n.accepting.toNat_le
    unfold toDo
    split <;> omega
  obtain ⟨stopping, lane, rest⟩ := steps_rest sink s told enough
  refine ⟨stopping, lane, fun due => ?_, rest⟩
  have goes := goes_step sink n s
  obtain ⟨moved, less⟩ := goes_of_due reliable due goes
  have later := toDo_goes goes moved
  have fuel : (n.step sink s).notifier.toDo < 3 * n.queue.length + 4 := by omega
  obtain ⟨-, lane', -⟩ :=
    steps_rest sink (n.step sink s).state ((stopping_goes goes).trans told) fuel
  rw [settle, steps, if_pos moved]
  exact Nat.lt_of_le_of_lt lane' less

/-- The worker leaves when time has passed for all that are still to be told. -/
theorem pass_over (reliable : sink.Reliable) (told : n.stopping) {fuel : Nat}
    (enough : n.lane.length < fuel ∨ n.IsDue sink s ∧ n.lane.length ≤ fuel) :
    (pass sink none n s fuel).notifier.isOver := by
  induction fuel generalizing n s with
  | zero =>
    rcases enough with none | ⟨⟨client, ticket, since, telling, -⟩, none⟩
    · exact absurd none (Nat.not_lt_zero _)
    · rw [lane_of_telling telling] at none
      exact absurd none (Nat.not_succ_le_zero _)
  | succ fuel ih =>
    obtain ⟨stopping, lane, less, rest⟩ := settle_rest (s := s) reliable told
    rw [pass]
    rcases rest with idle | ⟨client, ticket, since, telling⟩
    · have done : (n.settle sink s).notifier.due? sink (n.settle sink s).state = none := by
        unfold isOver at idle
        unfold due?
        split at idle <;> simp_all
      rw [done]
      exact idle
    · have lane : (n.settle sink s).notifier.lane.length ≤ fuel := by
        rcases enough with enough | ⟨due, enough⟩
        · omega
        · have := less due
          omega
      obtain ⟨due, ends, isDue⟩ := exists_due sink (n.settle sink s).state telling
      rw [ends]
      exact ih stopping (.inr ⟨isDue, lane⟩)

end Notifier

/-! ### Shifts -/

namespace Report

def handed? : Report → Option String
  | started client => some client
  | ended _ _ | abandoned _ => none

def attempted? : Report → Option String
  | started _ => none
  | ended client _ | abandoned client => some client

end Report

structure Shift (σ τ : Type) where
  notifier : Notifier τ
  state : σ
  accepted : List String := []
  reports : List Report := []

namespace Shift

inductive Event (σ : Type) where
  | submit (client : String)
  /-- The worker does its next step, and closes the queue first if it was told to stop. -/
  | work
  /-- The worker receives first. -/
  | receive
  | stop
  /-- No one can submit any more. -/
  | release
  | pass (duration : Nat)
  /-- What the sink works on is changed by others. -/
  | alter (state : σ)

def start (capacity timeout : Nat) (state : σ) : Shift σ τ :=
  { notifier := { capacity, timeout }, state }

def handed (w : Shift σ τ) : List String := w.reports.filterMap Report.handed?

def attempted (w : Shift σ τ) : List String := w.reports.filterMap Report.attempted?

def after (w : Shift σ τ) (turn : Turn σ τ) : Shift σ τ :=
  { w with
    notifier := turn.notifier, state := turn.state, reports := w.reports ++ turn.reports }

def withNotifier (w : Shift σ τ) (n : Notifier τ) : Shift σ τ := { w with notifier := n }

def step (sink : Sink σ τ) (w : Shift σ τ) : Event σ → Shift σ τ
  | .submit client =>
    let (taken, n) := w.notifier.submit client
    { w with notifier := n, accepted := w.accepted ++ if taken then [client] else [] }
  | .work => w.after (w.notifier.step sink w.state)
  | .receive => w.withNotifier w.notifier.receive
  | .stop => w.withNotifier w.notifier.stop
  | .release => w.withNotifier w.notifier.release
  | .pass duration => w.withNotifier { w.notifier with now := w.notifier.now + duration }
  | .alter state => { w with state }

def run (sink : Sink σ τ) : Shift σ τ → List (Event σ) → Shift σ τ
  | w, [] => w
  | w, e :: rest => run sink (w.step sink e) rest

/-- What the queue has taken is with the worker or was attempted. -/
structure Accounted (sink : Sink σ τ) (w : Shift σ τ) : Prop where
  accepted : w.accepted = w.attempted ++ w.notifier.lane
  handed : w.handed = w.attempted ++ w.notifier.underWay
  count : w.notifier.attempted = w.attempted.length
  issued : ∀ client ticket since, w.notifier.phase = .telling client ticket since →
    ∃ s, ticket = (sink.start s client).1
  whole : w.notifier.phase ≠ .broken
  left : w.notifier.phase = .left → w.notifier.queue = [] ∧ w.notifier.isClosed
  told : w.notifier.accepting = false → w.notifier.stopping

variable {sink : Sink σ τ} {w : Shift σ τ}

theorem accounted_start (capacity timeout : Nat) (s : σ) :
    (start capacity timeout s).Accounted sink where
  accepted := rfl
  handed := rfl
  count := rfl
  issued := by simp [start]
  whole := by simp [start]
  left := by simp [start]
  told := by simp [start]

theorem Accounted.keep (h : w.Accounted sink) {n : Notifier τ} (phase : n.phase = w.notifier.phase)
    (queue : n.queue = w.notifier.queue) (count : n.attempted = w.notifier.attempted)
    (closed : w.notifier.isClosed → n.isClosed)
    (told : n.accepting = false → n.stopping) : (w.withNotifier n).Accounted sink where
  accepted := by
    simp only [withNotifier, Notifier.lane, Notifier.inHand, phase, queue]
    exact h.accepted
  handed := by
    simp only [withNotifier, Notifier.underWay, phase]
    exact h.handed
  count := count.trans h.count
  issued := by
    simp only [withNotifier, phase]
    exact h.issued
  whole := by
    simp only [withNotifier, phase]
    exact h.whole
  left := by
    simp only [withNotifier, phase, queue]
    exact fun left => ⟨(h.left left).1, closed (h.left left).2⟩
  told := told

theorem handed_after (w : Shift σ τ) (turn : Turn σ τ) :
    (w.after turn).handed = w.handed ++ turn.reports.filterMap Report.handed? :=
  List.filterMap_append

theorem attempted_after (w : Shift σ τ) (turn : Turn σ τ) :
    (w.after turn).attempted = w.attempted ++ turn.reports.filterMap Report.attempted? :=
  List.filterMap_append

theorem accounted_endAttempt (h : w.Accounted sink) {client : String} {ticket : τ} {since : Nat}
    (telling : w.notifier.phase = .telling client ticket since) {r : Report}
    (ended : r.attempted? = some client) (handed : r.handed? = none) (s : σ) :
    (w.after { reports := [r], notifier := w.notifier.endAttempt, state := s }).Accounted sink := by
  have attempts :
      (w.after { reports := [r], notifier := w.notifier.endAttempt, state := s }).attempted =
      w.attempted ++ [client] := by
    rw [attempted_after]
    simp [ended]
  refine ⟨?_, ?_, ?_, ?_, ?_, ?_, h.told⟩
  · rw [attempts, List.append_assoc]
    exact h.accepted.trans (by rw [Notifier.lane_of_telling telling]; rfl)
  · rw [attempts, handed_after, h.handed]
    simp [Notifier.underWay, telling, handed, after, Notifier.endAttempt]
  · rw [attempts, List.length_append, ← h.count]
    rfl
  all_goals simp [after, Notifier.endAttempt]

theorem accounted_takes (h : w.Accounted sink) {client : String} {rest : List String}
    (idle : w.notifier.phase = .idle) (first : w.notifier.queue = client :: rest) :
    (w.withNotifier { w.notifier with
      queue := rest, phase := .taken client w.notifier.now }).Accounted sink := by
  obtain ⟨accepted, handed, count, issued, whole, left, told⟩ := h
  refine ⟨?_, ?_, count, ?_, ?_, ?_, told⟩
  · simp only [Notifier.lane, Notifier.inHand, idle, first] at accepted
    exact accepted
  · simp only [Notifier.underWay, idle] at handed
    exact handed
  all_goals simp [withNotifier]

theorem accounted_leaves (h : w.Accounted sink) (idle : w.notifier.phase = .idle)
    (empty : w.notifier.queue = []) (closed : w.notifier.isClosed) :
    (w.withNotifier { w.notifier with phase := .left }).Accounted sink := by
  obtain ⟨accepted, handed, count, issued, whole, left, told⟩ := h
  refine ⟨?_, ?_, count, ?_, ?_, ?_, told⟩
  · simp only [Notifier.lane, Notifier.inHand, idle] at accepted
    exact accepted
  · simp only [Notifier.underWay, idle] at handed
    exact handed
  · simp [withNotifier]
  · simp [withNotifier]
  · exact fun _ => ⟨empty, closed⟩

theorem accounted_receive (h : w.Accounted sink) :
    (w.withNotifier w.notifier.receive).Accounted sink := by
  unfold Notifier.receive
  split
  · next idle =>
    split
    · next client rest first => exact accounted_takes h idle first
    · next empty =>
      split
      · next closed => exact accounted_leaves h idle empty closed
      · exact h
  · exact h

theorem accounted_turn (reliable : sink.Reliable) (h : w.Accounted sink) {turn : Turn σ τ}
    (goes : w.notifier.Goes sink w.state turn) : (w.after turn).Accounted sink := by
  have still : ∀ {n : Notifier τ} {s : σ} {moved : Bool}, (w.withNotifier n).Accounted sink →
      (w.after { notifier := n, state := s, moved }).Accounted sink := by
    intro n s moved account
    have silent : w.after { notifier := n, state := s, moved } =
        { w.withNotifier n with state := s } := by
      simp [after, withNotifier]
    rw [silent]
    exact ⟨account.accepted, account.handed, account.count, account.issued, account.whole,
      account.left, account.told⟩
  cases goes with
  | closes idle told =>
    refine still (h.keep rfl rfl rfl ?_ fun _ => told.1)
    simp [Notifier.isClosed]
  | takes client rest idle first => exact still (accounted_takes h idle first)
  | listens idle untold => exact still h
  | leaves idle empty closed => exact still (accounted_leaves h idle empty closed)
  | hands client since taken =>
    refine ⟨?_, ?_, ?_, ?_, ?_, ?_, h.told⟩
    · rw [attempted_after]
      refine h.accepted.trans ?_
      rw [Notifier.lane_of_taken taken]
      simp [Report.attempted?, after, Notifier.lane, Notifier.inHand]
    · rw [handed_after, attempted_after, h.handed]
      simp [Notifier.underWay, taken, Report.handed?, Report.attempted?, after]
    · rw [attempted_after]
      exact h.count.trans (by simp [Report.attempted?])
    · rintro _ _ _ ⟨⟩
      exact ⟨_, rfl⟩
    all_goals simp [after]
  | ends client ticket since outcome telling => exact accounted_endAttempt h telling rfl rfl _
  | breaks client ticket since telling broke =>
    obtain ⟨s, rfl⟩ := h.issued client ticket since telling
    exact absurd broke (reliable.whole s client _ _)
  | abandons client ticket since telling => exact accounted_endAttempt h telling rfl rfl _
  | waits client ticket since telling => exact still h
  | rests idle => exact still h

theorem accounted_submit (h : w.Accounted sink) (client : String) :
    (w.step sink (.submit client)).Accounted sink := by
  have lane := w.notifier.lane_submit client
  have same : (w.notifier.submit client).2.underWay = w.notifier.underWay := by
    simp only [Notifier.underWay, Notifier.phase_submit]
  refine ⟨?_, ?_, ?_, ?_, ?_, ?_, ?_⟩
  · simp only [step]
    rw [lane, h.accepted, List.append_assoc]
    rfl
  · simp only [step]
    rw [same]
    exact h.handed
  · simp only [step, Notifier.attempted_submit]
    exact h.count
  · simp only [step, Notifier.phase_submit]
    exact h.issued
  · simp only [step, Notifier.phase_submit]
    exact h.whole
  · simp only [step, Notifier.phase_submit]
    intro left
    obtain ⟨empty, closed⟩ := h.left left
    rw [Notifier.submit_eq_self (Notifier.submit_eq_false_iff.2 (.inl closed))]
    exact ⟨empty, closed⟩
  · simp only [step, Notifier.submit]
    split <;> exact h.told

theorem accounted_step (reliable : sink.Reliable) (h : w.Accounted sink) (e : Event σ) :
    (w.step sink e).Accounted sink := by
  cases e with
  | submit client => exact accounted_submit h client
  | work => exact accounted_turn reliable h (Notifier.goes_step sink w.notifier w.state)
  | receive => exact accounted_receive h
  | stop => exact h.keep rfl rfl rfl id fun _ => rfl
  | release => exact h.keep rfl rfl rfl (by simp [Notifier.isClosed, Notifier.release]) h.told
  | pass duration => exact h.keep rfl rfl rfl id h.told
  | alter s =>
    exact ⟨h.accepted, h.handed, h.count, h.issued, h.whole, h.left, h.told⟩

theorem accounted_run (reliable : sink.Reliable) (h : w.Accounted sink) (events : List (Event σ)) :
    (w.run sink events).Accounted sink := by
  induction events generalizing w with
  | nil => exact h
  | cons e rest ih => exact ih (accounted_step reliable h e)

/-! ### Queues that are closed -/

theorem closed_step (sink : Sink σ τ) (closed : w.notifier.isClosed) (e : Event σ) :
    (w.step sink e).notifier.isClosed ∧ (w.step sink e).accepted = w.accepted := by
  cases e with
  | submit client =>
    have refused : (w.notifier.submit client).1 = false :=
      Notifier.submit_eq_false_iff.2 (.inl closed)
    simp only [step, refused, Notifier.submit_eq_self refused]
    exact ⟨closed, List.append_nil _⟩
  | work =>
    exact ⟨Notifier.closed_goes (Notifier.goes_step sink w.notifier w.state) closed, rfl⟩
  | receive =>
    refine ⟨?_, rfl⟩
    simp only [step, withNotifier, Notifier.receive]
    split
    · split
      · exact closed
      · split <;> exact closed
    · exact closed
  | release => exact ⟨by simp [step, withNotifier, Notifier.release, Notifier.isClosed], rfl⟩
  | stop => exact ⟨closed, rfl⟩
  | pass duration => exact ⟨closed, rfl⟩
  | alter s => exact ⟨closed, rfl⟩

theorem accepted_of_closed (closed : w.notifier.isClosed) (events : List (Event σ)) :
    (w.run sink events).accepted = w.accepted := by
  induction events generalizing w with
  | nil => rfl
  | cons e rest ih =>
    obtain ⟨closed, same⟩ := closed_step sink closed e
    exact (ih closed).trans same

theorem capacity_step (w : Shift σ τ) (e : Event σ) :
    (w.step sink e).notifier.capacity = w.notifier.capacity := by
  cases e with
  | submit client =>
    simp only [step, Notifier.submit]
    split <;> rfl
  | work => exact Notifier.capacity_goes (Notifier.goes_step sink w.notifier w.state)
  | receive =>
    simp only [step, withNotifier, Notifier.receive]
    split
    · split
      · rfl
      · split <;> rfl
    · rfl
  | _ => rfl

theorem capacity_run (sink : Sink σ τ) (w : Shift σ τ) (events : List (Event σ)) :
    (w.run sink events).notifier.capacity = w.notifier.capacity := by
  induction events generalizing w with
  | nil => rfl
  | cons e rest ih => exact (ih _).trans (capacity_step w e)

/-! ### The worker alone -/

theorem run_append (w : Shift σ τ) (first rest : List (Event σ)) :
    w.run sink (first ++ rest) = (w.run sink first).run sink rest := by
  induction first generalizing w with
  | nil => rfl
  | cons e first ih => exact ih _

theorem after_after (w : Shift σ τ) (turn turn' : Turn σ τ) :
    (w.after turn).after turn' = w.after (turn'.after turn.reports) := by
  simp [after, Turn.after]

theorem exists_run_steps (sink : Sink σ τ) (w : Shift σ τ) (fuel : Nat) :
    ∃ events, w.run sink events = w.after (w.notifier.steps sink w.state fuel) := by
  induction fuel generalizing w with
  | zero => exact ⟨[], by simp [run, after, Notifier.steps]⟩
  | succ fuel ih =>
    rw [Notifier.steps]
    split
    · obtain ⟨events, ends⟩ := ih (w.step sink .work)
      exact ⟨.work :: events, ends.trans (after_after w _ _)⟩
    · exact ⟨[.work], rfl⟩

theorem exists_run_pass (sink : Sink σ τ) (w : Shift σ τ) (target : Option Nat) (fuel : Nat) :
    ∃ events, w.run sink events = w.after (Notifier.pass sink target w.notifier w.state fuel) := by
  induction fuel generalizing w with
  | zero => exact ⟨[], by simp [run, after, Notifier.pass]⟩
  | succ fuel ih =>
    obtain ⟨events, settled⟩ := w.exists_run_steps sink (3 * w.notifier.queue.length + 5)
    rw [Notifier.pass]
    split
    · exact ⟨events, settled⟩
    · next due _ =>
      split
      · -- the clock goes on to the moment that is due
        let turn := w.notifier.settle sink w.state
        obtain ⟨rest, ends⟩ := ih ((w.after turn).step sink (.pass (due - turn.notifier.now)))
        refine ⟨events ++ .pass (due - turn.notifier.now) :: rest, ?_⟩
        have clock : turn.notifier.now + (due - turn.notifier.now) = max turn.notifier.now due := by
          omega
        rw [run_append, settled]
        refine ends.trans ?_
        simp only [step, withNotifier, after, clock]
        simp [Turn.after, turn]
      · exact ⟨events, settled⟩

theorem handed_of_left (h : w.Accounted sink) (left : w.notifier.phase = .left) :
    w.handed = w.accepted ∧ w.attempted = w.accepted ∧
      w.notifier.total = w.accepted.length ∧ w.notifier.isClosed := by
  obtain ⟨empty, closed⟩ := h.left left
  have accepted := h.accepted
  have handed := h.handed
  simp only [Notifier.lane, Notifier.inHand, left, empty, List.append_nil] at accepted
  simp only [Notifier.underWay, left, List.append_nil] at handed
  refine ⟨handed.trans accepted.symm, accepted.symm, ?_, closed⟩
  simp only [Notifier.total, left]
  rw [h.count, accepted]

theorem left_of_drain (reliable : sink.Reliable) (h : w.Accounted sink) :
    (w.after (w.notifier.drain sink w.state)).Accounted sink ∧
      (w.notifier.drain sink w.state).notifier.phase = .left := by
  have stopped := accounted_step reliable h (.stop : Event σ)
  obtain ⟨events, drained⟩ := (w.step sink .stop).exists_run_pass sink none
    (w.notifier.queue.length + 3)
  have account := accounted_run reliable stopped events
  rw [drained] at account
  refine ⟨account, ?_⟩
  have told : w.notifier.stop.stopping := rfl
  have short : w.notifier.stop.lane.length < w.notifier.queue.length + 3 := by
    simp only [Notifier.stop, Notifier.lane, Notifier.inHand, List.length_append]
    split <;> simp <;> omega
  have idle := Notifier.pass_over (s := w.state) reliable told (.inl short)
  have whole := account.whole
  simp only [after, step, withNotifier] at whole
  unfold Notifier.isOver at idle
  rw [Notifier.drain]
  split at idle
  · next left => exact left
  · next broken => exact absurd broken whole
  · cases idle

/-- In whatever order clients are submitted, the worker goes on, its attempts end and it is told to
stop, the sink is handed the clients that the queue has taken, in their order and each once. The
queue refuses a client only when it is full or closed. When the worker has left, and it does leave
when it is shut down, each of them was attempted, and it leaves with their number. -/
theorem accepted_attempted (reliable : sink.Reliable) (capacity timeout : Nat) (state : σ)
    (events : List (Event σ)) :
    let w := (start capacity timeout state).run sink events
    let down := w.notifier.drain sink w.state
    w.accepted = w.handed ++ w.notifier.unhanded ∧
    w.handed = w.attempted ++ w.notifier.underWay ∧
    (∀ client, w.notifier.held → ((w.notifier.submit client).1 = false ↔
      w.notifier.accepting = false ∨ capacity ≤ w.notifier.queue.length)) ∧
    (w.notifier.accepting = false → w.notifier.stopping) ∧
    (w.notifier.accepting = false → ∀ more, (w.run sink more).accepted = w.accepted) ∧
    (w.notifier.phase = .left → w.handed = w.accepted ∧ w.attempted = w.accepted ∧
      w.notifier.total = w.accepted.length ∧ ∀ more, (w.run sink more).accepted = w.accepted) ∧
    down.notifier.phase = .left ∧ down.notifier.total = w.accepted.length ∧
    (w.after down).handed = w.accepted ∧ (w.after down).attempted = w.accepted ∧
    ∀ more, ((w.after down).run sink more).accepted = w.accepted := by
  intro w down
  have h : w.Accounted sink :=
    accounted_run reliable (accounted_start capacity timeout state) events
  have room : w.notifier.capacity = capacity :=
    capacity_run sink (start capacity timeout state) events
  obtain ⟨account, left⟩ := left_of_drain reliable h
  obtain ⟨handed, attempted, total, closed⟩ := handed_of_left account left
  refine ⟨?_, h.handed, ?_, h.told, ?_, ?_, left, total, handed, attempted,
    accepted_of_closed closed⟩
  · rw [h.handed, List.append_assoc, ← Notifier.lane_eq]
    exact h.accepted
  · intro client held
    rw [Notifier.submit_eq_false_iff, room]
    simp [Notifier.isClosed, held]
  · intro closed
    exact accepted_of_closed (by simp [Notifier.isClosed, closed])
  · intro gone
    obtain ⟨handed, attempted, total, closed⟩ := handed_of_left h gone
    exact ⟨handed, attempted, total, accepted_of_closed closed⟩

/-! ### A shift with a slow client -/

/-- Alice takes longer than the worker waits, bob cannot be told. -/
def tempers : Sink Unit TimedAttempt := .timed fun client =>
  if client = "alice" then ⟨5, .succeeded⟩ else if client = "bob" then ⟨0, .failed⟩
  else ⟨1, .succeeded⟩

/-- Carol finds the queue full, dave comes after the word to stop and before the closing. -/
def busy : List (Event Unit) :=
  [.submit "alice", .submit "bob", .submit "carol", .work, .work, .stop, .pass 2, .work,
    .receive, .submit "dave", .work, .work, .work, .submit "erin"]

theorem busy_drained : tempers.Reliable ∧
    ((start 2 2 ()).run tempers busy).accepted = ["alice", "bob", "dave"] ∧
    (((start 2 2 ()).run tempers busy).notifier.drain tempers ()).notifier.total = 3 := by
  have reliable : tempers.Reliable := by
    refine Sink.reliable_timed fun client => ?_
    split
    · simp
    · split <;> simp
  have accepted : ((start 2 2 ()).run tempers busy).accepted = ["alice", "bob", "dave"] := by
    decide +kernel
  obtain ⟨-, -, -, -, -, -, -, total, -⟩ := accepted_attempted reliable 2 2 () busy
  rw [accepted] at total
  exact ⟨reliable, accepted, total⟩

end Shift

end Relay
