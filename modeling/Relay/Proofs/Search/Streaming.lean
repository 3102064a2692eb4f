import Relay.Proofs.Frame
import Relay.Search.Index
import Relay.Search.Response

/-!
# Streaming results

A producer with results that all fit a frame and the writer of the response go on in any order.
What is written, what the channel holds and what is still to be sent always make up the results
in their order (`Carries`), so a response that ends has written all of them. It does end: reads
that follow a step of the producer are never in vain (`toRead`).
-/

namespace Relay

def Envelope.framed (e : Envelope) : Bytes := Frame.of e.toBytes

theorem Envelope.frame_of_fits {e : Envelope} (h : Index.fits e) : e.frame = .ok e.framed := by
  rw [frame, Frame.encode_of_fits (of_decide_eq_true h)]
  rfl

namespace Response

/-! ### The state of a response -/

/-- A response that has not ended, with the results it has taken from the channel, those in the
channel, and those the producer still has. -/
structure Going (taken queued rest : List Envelope) (r : Response) : Prop where
  room : 0 < r.producer.channel.capacity
  listening : r.producer.channel.isCancelled = false
  queue : r.producer.channel.queue = queued.map .ok
  script : r.producer.script = rest.map .item
  sink : r.producer.state = .running ∧ r.producer.channel.sinkOpen = true ∨
    r.producer.state = .finished ∧ r.producer.channel.sinkOpen = false ∧ rest = []
  writer : r.state = .opening ∧ r.frames = [] ∧ taken = [] ∨
    (∃ e, r.state = .holding e.framed ∧ r.frames = [] ∧ taken = [e]) ∨
    r.state = .streaming ∧ r.frames = taken.map Envelope.framed ∧ taken ≠ []

/-- A response that has ended as it should. -/
structure Ended (items : List Envelope) (r : Response) : Prop where
  stopped : r.producer.state = .finished
  drained : r.producer.channel.queue = []
  used : r.producer.script = []
  frames : r.frames = items.map Envelope.framed
  state : r.state = .empty ∧ items = [] ∨ r.state = .complete ∧ items ≠ []

inductive Carries (items : List Envelope) (r : Response) : Prop
  | going (taken queued rest : List Envelope) (all : items = taken ++ queued ++ rest)
      (state : Going taken queued rest r)
  | ended (state : Ended items r)

theorem carries_start (buffer : Nat) (items : List Envelope) :
    Carries items (start buffer (items.map .item)) := by
  refine .going [] [] items rfl ⟨?_, rfl, rfl, rfl, .inl ⟨rfl, rfl⟩, .inl ⟨rfl, rfl, rfl⟩⟩
  exact Nat.lt_of_lt_of_le Nat.one_pos (Nat.le_max_left 1 buffer)

/-! ### The producer goes on -/

/-- There is something to read, or nothing more will come. -/
def IsReady (r : Response) : Prop :=
  r.producer.channel.queue ≠ [] ∨ r.producer.channel.sinkOpen = false

theorem step_produce (r : Response) :
    r.step .produce = { r with producer := r.producer.step } := rfl

theorem produce_stopped {r : Response} (h : r.producer.state ≠ .running) :
    r.step .produce = r := by
  rw [step_produce, Producer.step, if_pos h]

theorem produce_finish {taken queued : List Envelope} {r : Response}
    (h : Going taken queued [] r) (running : r.producer.state = .running) :
    Going taken queued [] (r.step .produce) ∧ IsReady (r.step .produce) := by
  have stop : r.producer.step = r.producer.stop .finished := by
    unfold Producer.step
    rw [if_neg (not_not_intro running), h.script]
    rfl
  rw [step_produce, stop]
  exact ⟨⟨h.room, h.listening, h.queue, rfl, .inr ⟨rfl, rfl, rfl⟩, h.writer⟩, .inr rfl⟩

theorem produce_send {taken queued rest : List Envelope} {e : Envelope} {r : Response}
    (h : Going taken queued (e :: rest) r) (running : r.producer.state = .running) :
    (Going taken (queued ++ [e]) rest (r.step .produce) ∨
      Going taken queued (e :: rest) (r.step .produce)) ∧ IsReady (r.step .produce) := by
  have sinkOpen : r.producer.channel.sinkOpen = true := by
    rcases h.sink with ⟨_, sinkOpen⟩ | ⟨_, _, none⟩
    · exact sinkOpen
    · cases none
  by_cases room : r.producer.channel.hasRoom
  · have sent : r.producer.step = { r.producer with
        channel := r.producer.channel.push (.ok e), script := rest.map .item,
        sent := r.producer.sent + 1 } := by
      unfold Producer.step
      rw [if_neg (not_not_intro running), h.script, List.map_cons]
      simp only [Channel.send_eq, h.listening, room, Bool.false_eq_true, if_false, if_true]
    rw [step_produce, sent]
    refine ⟨.inl ⟨h.room, h.listening, ?_, rfl, .inl ⟨running, sinkOpen⟩, h.writer⟩, .inl ?_⟩
    · simp [Channel.push, h.queue]
    · simp [Channel.push]
  · have waits : r.producer.step = r.producer := by
      unfold Producer.step
      rw [if_neg (not_not_intro running), h.script, List.map_cons]
      simp only [Channel.send_eq, h.listening, room, Bool.false_eq_true, if_false]
    rw [step_produce, waits]
    refine ⟨.inr h, .inl fun empty => room ?_⟩
    rw [Channel.hasRoom, empty]
    exact decide_eq_true h.room

/-- One step of the producer moves at most one result, and leaves something to read. -/
theorem produce_going {taken queued rest : List Envelope} {r : Response}
    (h : Going taken queued rest r) :
    (Going taken queued rest (r.step .produce) ∨
      ∃ e rest', rest = e :: rest' ∧ Going taken (queued ++ [e]) rest' (r.step .produce)) ∧
    IsReady (r.step .produce) := by
  rcases h.sink with ⟨running, _⟩ | ⟨finished, closed, _⟩
  · cases rest with
    | nil =>
      obtain ⟨going, ready⟩ := produce_finish h running
      exact ⟨.inl going, ready⟩
    | cons e rest =>
      obtain ⟨sent | waits, ready⟩ := produce_send h running
      · exact ⟨.inr ⟨e, rest, rfl, sent⟩, ready⟩
      · exact ⟨.inl waits, ready⟩
  · have stopped : r.producer.state ≠ .running := by
      rw [finished]
      decide
    rw [produce_stopped stopped]
    exact ⟨.inl h, .inr closed⟩

/-! ### The writer goes on -/

theorem next_cons {taken queued rest : List Envelope} {e : Envelope} {r : Response}
    (h : Going taken (e :: queued) rest r) : r.producer.next =
      (.item e, { r.producer with
        channel := { r.producer.channel with queue := queued.map .ok } }) := by
  rw [Producer.next, Channel.next, h.queue, List.map_cons]

theorem next_nil {taken rest : List Envelope} {r : Response} (h : Going taken [] rest r) :
    r.producer.next = (if r.producer.channel.sinkOpen then .pending else .done, r.producer) := by
  rw [Producer.next, Channel.next, h.queue, List.map_nil]

theorem read_item {taken queued rest : List Envelope} {e : Envelope} {r : Response}
    (h : Going taken (e :: queued) rest r) (fits : Index.fits e)
    (free : r.state = .opening ∨ r.state = .streaming) :
    Going (taken ++ [e]) queued rest r.read := by
  rcases h.writer with ⟨opening, frames, rfl⟩ | ⟨held, holding, _⟩ | ⟨streaming, frames, some⟩
  · have read : r.read = { r with
        producer := { r.producer with
          channel := { r.producer.channel with queue := queued.map .ok } },
        state := .holding e.framed } := by
      rw [Response.read, opening]
      dsimp only
      rw [next_cons h]
      dsimp only
      rw [e.frame_of_fits fits]
    rw [read]
    exact ⟨h.room, h.listening, rfl, h.script, h.sink, .inr (.inl ⟨e, rfl, frames, rfl⟩)⟩
  · rw [holding] at free
    rcases free with free | free <;> cases free
  · have read : r.read = { r with
        producer := { r.producer with
          channel := { r.producer.channel with queue := queued.map .ok } },
        state := .streaming, frames := r.frames ++ [e.framed] } := by
      rw [Response.read, streaming]
      dsimp only
      rw [next_cons h]
      dsimp only
      rw [e.frame_of_fits fits]
      rfl
    rw [read]
    refine ⟨h.room, h.listening, rfl, h.script, h.sink, .inr (.inr ⟨rfl, ?_, by simp⟩)⟩
    rw [List.map_append, frames]
    rfl

theorem read_held {taken queued rest : List Envelope} {first : Bytes} {r : Response}
    (h : Going taken queued rest r) (holding : r.state = .holding first) :
    Going taken queued rest r.read ∧ r.read.state = .streaming := by
  rcases h.writer with ⟨opening, _⟩ | ⟨e, held, frames, rfl⟩ | ⟨streaming, _⟩
  · rw [holding] at opening
    cases opening
  · have read : r.read = { r with state := .streaming, frames := [e.framed] } := by
      rw [Response.read, held]
      dsimp only
      rw [emit, frames]
      rfl
    rw [read]
    exact ⟨⟨h.room, h.listening, h.queue, h.script, h.sink, .inr (.inr ⟨rfl, rfl, by simp⟩)⟩, rfl⟩
  · rw [holding] at streaming
    cases streaming

theorem read_pending {taken rest : List Envelope} {r : Response} (h : Going taken [] rest r)
    (more : r.producer.channel.sinkOpen = true)
    (free : r.state = .opening ∨ r.state = .streaming) : r.read = r := by
  have next := next_nil h
  rw [more, if_pos rfl] at next
  obtain ⟨producer, state, frames⟩ := r
  rcases free with rfl | rfl
  all_goals
    rw [Response.read]
    dsimp only at next ⊢
    rw [next]

theorem read_done {taken rest : List Envelope} {r : Response} (h : Going taken [] rest r)
    (closed : r.producer.channel.sinkOpen = false)
    (free : r.state = .opening ∨ r.state = .streaming) : Ended taken r.read := by
  have next := next_nil h
  rw [closed] at next
  simp only [Bool.false_eq_true, if_false] at next
  rcases h.sink with ⟨_, sinkOpen⟩ | ⟨finished, _, rfl⟩
  · rw [closed] at sinkOpen
    cases sinkOpen
  rcases h.writer with ⟨opening, frames, rfl⟩ | ⟨held, holding, _⟩ | ⟨streaming, frames, some⟩
  · have read : r.read = r.close .empty := by
      rw [Response.read, opening]
      dsimp only
      rw [next]
      rfl
    rw [read]
    exact ⟨finished, rfl, h.script, frames, .inl ⟨rfl, rfl⟩⟩
  · rw [holding] at free
    rcases free with free | free <;> cases free
  · have read : r.read = r.close .complete := by
      rw [Response.read, streaming]
      dsimp only
      rw [next]
      rfl
    rw [read]
    exact ⟨finished, rfl, h.script, frames, .inr ⟨rfl, some⟩⟩

theorem read_ended {items : List Envelope} {r : Response} (h : Ended items r) : r.read = r := by
  rcases h.state with ⟨state, _⟩ | ⟨state, _⟩
  all_goals
    rw [Response.read, state]

/-! ### Runs -/

/-- How many reads are still to come that find something. -/
def toRead (r : Response) : Nat :=
  r.producer.script.length + r.producer.channel.queue.length +
    match r.state with
    | .opening | .holding _ => 2
    | .streaming => 1
    | _ => 0

/-- The producer or the writer went on; the client is still there. -/
def Undisturbed (events : List Event) : Prop := .hangUp ∉ events

theorem Undisturbed.tail {event : Event} {events : List Event}
    (quiet : Undisturbed (event :: events)) : Undisturbed events :=
  fun hangs => quiet (List.mem_cons_of_mem _ hangs)

/-- So many turns of producer and writer, with anything else of theirs in between. -/
def Turns (n : Nat) (events : List Event) : Prop :=
  (List.replicate n [.produce, .read]).flatten.Sublist events

theorem run_append (r : Response) (events events' : List Event) :
    r.run (events ++ events') = (r.run events).run events' := List.foldl_append

/-- Responses of a kind stay so, and a read that follows a step of the producer is one of the
`reads` that are still to come. -/
structure Progress (kind : Response → Prop) (reads : Response → Nat) : Prop where
  produce : ∀ {r}, kind r → kind (r.step .produce) ∧ reads (r.step .produce) = reads r ∧
    (0 < reads r → IsReady (r.step .produce))
  read : ∀ {r}, kind r → kind r.read ∧ reads r.read ≤ reads r ∧
    (0 < reads r → IsReady r → reads r.read < reads r)

namespace Progress

variable {kind : Response → Prop} {reads : Response → Nat} {r : Response} {events : List Event}

theorem run (h : Progress kind reads) (quiet : Undisturbed events) (here : kind r) :
    kind (r.run events) ∧ reads (r.run events) ≤ reads r := by
  induction events generalizing r with
  | nil => exact ⟨here, Nat.le_refl _⟩
  | cons event events ih =>
    cases event with
    | produce =>
      obtain ⟨next, same, _⟩ := h.produce here
      obtain ⟨ended, le⟩ := ih quiet.tail next
      exact ⟨ended, same ▸ le⟩
    | read =>
      obtain ⟨next, le, _⟩ := h.read here
      obtain ⟨ended, le'⟩ := ih quiet.tail next
      exact ⟨ended, Nat.le_trans le' le⟩
    | hangUp => exact absurd List.mem_cons_self quiet

/-- A read some time after the producer has gone on finds something. -/
theorem run_of_ready (h : Progress kind reads) (quiet : Undisturbed events) (here : kind r)
    (more : 0 < reads r) (ready : IsReady r) (mem : .read ∈ events) :
    reads (r.run events) < reads r := by
  induction events generalizing r with
  | nil => cases mem
  | cons event events ih =>
    cases event with
    | produce =>
      obtain ⟨next, same, ready'⟩ := h.produce here
      have later : .read ∈ events := by simpa using mem
      have less := ih quiet.tail next (same ▸ more) (ready' more) later
      exact same ▸ less
    | read =>
      obtain ⟨next, _, less⟩ := h.read here
      exact Nat.lt_of_le_of_lt (h.run quiet.tail next).2 (less more ready)
    | hangUp => exact absurd List.mem_cons_self quiet

theorem run_of_sublist (h : Progress kind reads) (quiet : Undisturbed events) (here : kind r)
    (more : 0 < reads r) (turn : [.produce, .read].Sublist events) :
    reads (r.run events) < reads r := by
  induction events generalizing r with
  | nil => cases turn
  | cons event events ih =>
    cases event with
    | produce =>
      obtain ⟨next, same, ready⟩ := h.produce here
      have later : .read ∈ events := List.singleton_sublist.1 (List.cons_sublist_cons.1 turn)
      have less := h.run_of_ready quiet.tail next (same ▸ more) (ready more) later
      exact same ▸ less
    | read =>
      have later : [.produce, .read].Sublist events := by
        cases turn with
        | cons _ later => exact later
      obtain ⟨next, le, _⟩ := h.read here
      rcases Nat.eq_zero_or_pos (reads r.read) with spent | more'
      · have le' := (h.run quiet.tail next).2
        change reads (r.read.run events) < _
        omega
      · exact Nat.lt_of_lt_of_le (ih quiet.tail next more' later) le
    | hangUp => exact absurd List.mem_cons_self quiet

/-- As many turns as there are reads to come leave none. -/
theorem run_of_turns (h : Progress kind reads) {n : Nat} (quiet : Undisturbed events)
    (here : kind r) (turns : Turns n events) (enough : reads r ≤ n) :
    reads (r.run events) = 0 := by
  induction n generalizing r events with
  | zero =>
    have := (h.run quiet here).2
    omega
  | succ n ih =>
    unfold Turns at turns
    rw [List.replicate_succ, List.flatten_cons] at turns
    -- one turn lies in a first part of the events, the others in what comes later
    obtain ⟨first, later, rfl, turn, turns⟩ := List.append_sublist_iff.1 turns
    have quiet₁ : Undisturbed first := fun hangs => quiet (List.mem_append_left _ hangs)
    have quiet₂ : Undisturbed later := fun hangs => quiet (List.mem_append_right _ hangs)
    obtain ⟨next, le⟩ := h.run quiet₁ here
    rw [run_append]
    refine ih quiet₂ next turns ?_
    rcases Nat.eq_zero_or_pos (reads r) with spent | more
    · omega
    · have := h.run_of_sublist quiet₁ here more turn
      omega

end Progress

theorem toRead_ended {items : List Envelope} {r : Response} (h : Ended items r) : r.toRead = 0 := by
  rw [toRead, h.drained, h.used]
  rcases h.state with ⟨state, _⟩ | ⟨state, _⟩
  all_goals rw [state]; rfl

theorem toRead_going {taken queued rest : List Envelope} {r : Response}
    (h : Going taken queued rest r) :
    r.toRead = rest.length + queued.length + (if r.state = .streaming then 1 else 2) := by
  rw [toRead, h.script, h.queue, List.length_map, List.length_map]
  rcases h.writer with ⟨state, _⟩ | ⟨e, state, _⟩ | ⟨state, _⟩
  all_goals rw [state]; rfl

theorem carries_produce {items : List Envelope} {r : Response} (h : Carries items r) :
    Carries items (r.step .produce) ∧ (r.step .produce).toRead = r.toRead ∧
      (0 < r.toRead → IsReady (r.step .produce)) := by
  cases h with
  | going taken queued rest all going =>
    obtain ⟨moved, ready⟩ := produce_going going
    have writer : (r.step .produce).state = r.state := rfl
    rcases moved with same | ⟨e, rest', rfl, sent⟩
    · refine ⟨.going taken queued rest all same, ?_, fun _ => ready⟩
      rw [toRead_going going, toRead_going same, writer]
    · refine ⟨.going taken (queued ++ [e]) rest' (by simp [all]) sent, ?_, fun _ => ready⟩
      rw [toRead_going going, toRead_going sent, writer, List.length_cons, List.length_append,
        List.length_singleton]
      omega
  | ended ended =>
    have stopped : r.producer.state ≠ .running := by
      rw [ended.stopped]
      decide
    rw [produce_stopped stopped]
    refine ⟨.ended ended, rfl, fun more => ?_⟩
    rw [toRead_ended ended] at more
    exact absurd more (Nat.lt_irrefl 0)

theorem streaming_of_append {taken queued rest : List Envelope} {e : Envelope} {r : Response}
    (h : Going (taken ++ [e]) queued rest r) (some : taken ≠ []) : r.state = .streaming := by
  rcases h.writer with ⟨_, _, none⟩ | ⟨e', _, _, one⟩ | ⟨state, _⟩
  · simp at none
  · have := congrArg List.length one
    cases taken with
    | nil => exact absurd rfl some
    | cons a taken => simp at this
  · exact state

theorem toRead_read_item {taken queued rest : List Envelope} {e : Envelope} {r : Response}
    (h : Going taken (e :: queued) rest r) (fits : Index.fits e)
    (free : r.state = .opening ∨ r.state = .streaming) : r.read.toRead < r.toRead := by
  have read := read_item h fits free
  rw [toRead_going h, toRead_going read, List.length_cons]
  rcases h.writer with ⟨opening, _⟩ | ⟨held, holding, _⟩ | ⟨streaming, _, some⟩
  · have : r.state ≠ .streaming := by
      rw [opening]
      decide
    rw [if_neg this]
    split <;> omega
  · rw [holding] at free
    rcases free with free | free <;> cases free
  · rw [if_pos streaming, if_pos (streaming_of_append read some)]
    omega

theorem carries_read_free {items taken queued rest : List Envelope} {r : Response}
    (fits : ∀ e ∈ items, Index.fits e) (all : items = taken ++ queued ++ rest)
    (h : Going taken queued rest r) (free : r.state = .opening ∨ r.state = .streaming) :
    Carries items r.read ∧ r.read.toRead ≤ r.toRead ∧
      (IsReady r → r.read.toRead < r.toRead) := by
  cases queued with
  | cons e queued =>
    have small : Index.fits e := fits e (by simp [all])
    have less := toRead_read_item h small free
    exact ⟨.going (taken ++ [e]) queued rest (by simp [all]) (read_item h small free),
      Nat.le_of_lt less, fun _ => less⟩
  | nil =>
    by_cases more : r.producer.channel.sinkOpen = true
    · rw [read_pending h more free]
      refine ⟨.going taken [] rest all h, Nat.le_refl _, fun ready => ?_⟩
      rcases ready with some | closed
      · exact absurd h.queue some
      · rw [more] at closed
        cases closed
    · have closed : r.producer.channel.sinkOpen = false := by simpa using more
      have done := read_done h closed free
      rcases h.sink with ⟨_, sinkOpen⟩ | ⟨_, _, rfl⟩
      · exact absurd sinkOpen more
      rw [List.append_nil, List.append_nil] at all
      rw [toRead_ended done, toRead_going h]
      refine ⟨.ended (all ▸ done), Nat.zero_le _, fun _ => ?_⟩
      split <;> omega

theorem carries_read {items : List Envelope} {r : Response} (fits : ∀ e ∈ items, Index.fits e)
    (h : Carries items r) :
    Carries items r.read ∧ r.read.toRead ≤ r.toRead ∧
      (0 < r.toRead → IsReady r → r.read.toRead < r.toRead) := by
  cases h with
  | ended ended =>
    rw [read_ended ended]
    refine ⟨.ended ended, Nat.le_refl _, fun more => ?_⟩
    rw [toRead_ended ended] at more
    exact absurd more (Nat.lt_irrefl 0)
  | going taken queued rest all going =>
    rcases going.writer with ⟨opening, _⟩ | ⟨e, holding, _⟩ | ⟨streaming, _⟩
    · obtain ⟨carries, le, less⟩ := carries_read_free fits all going (.inl opening)
      exact ⟨carries, le, fun _ => less⟩
    · obtain ⟨read, streaming⟩ := read_held going holding
      have waits : r.state ≠ .streaming := by
        rw [holding]
        exact fun h => by cases h
      have less : r.read.toRead < r.toRead := by
        rw [toRead_going going, toRead_going read, if_pos streaming, if_neg waits]
        omega
      exact ⟨.going taken queued rest all read, Nat.le_of_lt less, fun _ _ => less⟩
    · obtain ⟨carries, le, less⟩ := carries_read_free fits all going (.inr streaming)
      exact ⟨carries, le, fun _ => less⟩

theorem progress_carries {items : List Envelope} (fits : ∀ e ∈ items, Index.fits e) :
    Progress (Carries items) toRead := ⟨carries_produce, carries_read fits⟩

/-- Every order of steps of producer and writer keeps the results together. -/
theorem carries_run {items : List Envelope} (fits : ∀ e ∈ items, Index.fits e) {r : Response}
    {events : List Event} (quiet : Undisturbed events) (h : Carries items r) :
    Carries items (r.run events) ∧ (r.run events).toRead ≤ r.toRead :=
  (progress_carries fits).run quiet h

/-- A response ends after as many turns as there are reads to come. -/
theorem toRead_run_of_turns {items : List Envelope} (fits : ∀ e ∈ items, Index.fits e) {n : Nat}
    {r : Response} {events : List Event} (quiet : Undisturbed events) (h : Carries items r)
    (turns : Turns n events) (enough : r.toRead ≤ n) : (r.run events).toRead = 0 :=
  (progress_carries fits).run_of_turns quiet h turns enough

/-! ### Responses that have ended -/

theorem ended_of_toRead {items : List Envelope} {r : Response} (h : Carries items r)
    (spent : r.toRead = 0) : Ended items r := by
  cases h with
  | going taken queued rest all going =>
    rw [toRead_going going] at spent
    split at spent <;> omega
  | ended ended => exact ended

theorem isOpen_going {taken queued rest : List Envelope} {r : Response}
    (h : Going taken queued rest r) : r.isOpen := by
  rcases h.writer with ⟨state, _⟩ | ⟨e, state, _⟩ | ⟨state, _⟩
  all_goals rw [isOpen, state]

theorem ended_of_closed {items : List Envelope} {r : Response} (h : Carries items r)
    (closed : r.isOpen = false) : Ended items r := by
  cases h with
  | going taken queued rest all going =>
    rw [isOpen_going going] at closed
    cases closed
  | ended ended => exact ended

/-! ### The response as it is driven -/

theorem steps_eq_run (r : Response) (n : Nat) :
    { r with producer := r.producer.steps n } = r.run (List.replicate n .produce) := by
  induction n generalizing r with
  | zero => rfl
  | succ n ih => exact ih (r.step .produce)

theorem undisturbed_produce (n : Nat) : Undisturbed (List.replicate n .produce) := by
  intro hangs
  cases List.eq_of_mem_replicate hangs

/-- A response that is driven goes through some order of steps, with a turn for each read, or it
has ended before. -/
theorem exists_run_drive (r : Response) (fuel : Nat) :
    ∃ events, Undisturbed events ∧ drive none r fuel = r.run events ∧
      (Turns fuel events ∨ (r.run events).isOpen = false) := by
  induction fuel generalizing r with
  | zero => exact ⟨[], List.not_mem_nil, rfl, .inl (List.nil_sublist _)⟩
  | succ fuel ih =>
    -- to settle is to let the producer go on until it is sure to wait
    have settled : r.settle = r.run (List.replicate (r.producer.script.length + 1) .produce) :=
      steps_eq_run r _
    by_cases more : r.settle.isOpen
    · have goes : drive none r (fuel + 1) = drive none r.settle.read fuel := by
        rw [drive]
        simp [more]
      obtain ⟨events, quiet, ran, done⟩ := ih r.settle.read
      have whole : r.run (List.replicate (r.producer.script.length + 1) .produce ++
          .read :: events) = r.settle.read.run events := by
        rw [run_append, ← settled]
        rfl
      refine ⟨_, ?_, (goes.trans ran).trans whole.symm, ?_⟩
      · intro hangs
        rcases List.mem_append.1 hangs with hangs | hangs
        · exact undisturbed_produce _ hangs
        · exact quiet (by simpa using hangs)
      · rw [whole]
        refine done.imp_left fun turns => ?_
        have first : [Event.produce].Sublist
            (List.replicate (r.producer.script.length + 1) .produce) :=
          List.singleton_sublist.2 (by simp)
        unfold Turns
        rw [List.replicate_succ, List.flatten_cons]
        exact first.append (turns.cons_cons .read)
    · have stays : drive none r (fuel + 1) = r.settle := by
        rw [drive]
        simp [more]
      rw [stays]
      exact ⟨_, undisturbed_produce _, settled, .inr (by rw [← settled]; simpa using more)⟩

/-- A response that is driven goes through some order of steps, with a read for each of the
reads to come. -/
theorem drive_spec {items : List Envelope} (fits : ∀ e ∈ items, Index.fits e) {r : Response}
    (fuel : Nat) (h : Carries items r) :
    (∃ events, Undisturbed events ∧ drive none r fuel = r.run events) ∧
      (r.toRead ≤ fuel → (drive none r fuel).toRead = 0) := by
  obtain ⟨events, quiet, ran, turns | closed⟩ := r.exists_run_drive fuel
  all_goals
    rw [ran]
    refine ⟨⟨events, quiet, rfl⟩, fun enough => ?_⟩
  · exact toRead_run_of_turns fits quiet h turns enough
  · exact toRead_ended (ended_of_closed (carries_run fits quiet h).1 closed)

end Response

end Relay
