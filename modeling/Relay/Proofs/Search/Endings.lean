import Relay.Cafe.Basic
import Relay.Proofs.Search.Answering
import Relay.Proofs.Search.Cancellation

/-!
# How a response ends

A query that brings some results and then ends, as it should or with a fault, has one response.
`Ending` says in which state it ends, and its frames are those of the results in front of the
first that fits none. What the writer has taken, what the channel holds and what the producer
still has are at any time the results and the fault (`Flows`), so no order of steps and no size of
the channel makes a difference: `response_determined`.
-/

namespace Relay

/-- The script of a query that brings results and then ends, with a fault or without. -/
def Emission.script (items : List Envelope) (fault : Option QueryError) : List Emission :=
  items.map .item ++ (fault.map .fail).toList

/-- What the channel takes for an emission. -/
def Emission.told : Emission → Except QueryError Envelope
  | .item e => .ok e
  | .fail e => .error e

/-- Why a result that fits no frame breaks the stream off. -/
def Envelope.oversized (e : Envelope) : RequestError :=
  .streamAborted (Frame.Fault.tooLarge e.toBytes.length).message

theorem Envelope.frame_of_not_fits {e : Envelope} (h : ¬Index.fits e) :
    e.frame = .error e.oversized := by
  have large : ¬e.toBytes.length ≤ Frame.maxPayload := fun small => h (decide_eq_true small)
  rw [frame, Frame.encode, if_neg large]
  rfl

namespace Response

/-! ### Endings -/

/-- The state in which a response to results and a fault ends. -/
inductive Ending : List Envelope → Option QueryError → ResponseState → Prop
  | empty : Ending [] none .empty
  | failed (e : QueryError) : Ending [] (some e) (.refused (.streamAborted e.message))
  | unfit {e : Envelope} (large : ¬Index.fits e) (later : List Envelope)
      (fault : Option QueryError) : Ending (e :: later) fault (.refused e.oversized)
  | complete {items : List Envelope} (some : items ≠ []) (fits : ∀ e ∈ items, Index.fits e) :
      Ending items none .complete
  | cutOff {items : List Envelope} (some : items ≠ []) (fits : ∀ e ∈ items, Index.fits e)
      (e : QueryError) : Ending items (.some e) (.aborted (.streamAborted e.message))
  | broken {first : List Envelope} {e : Envelope} (some : first ≠ [])
      (fits : ∀ e ∈ first, Index.fits e) (large : ¬Index.fits e) (later : List Envelope)
      (fault : Option QueryError) : Ending (first ++ e :: later) fault (.aborted e.oversized)

/-- The state after some results, with what broke the response off. -/
def closing : List Envelope → Option RequestError → ResponseState
  | [], none => .empty
  | [], some e => .refused e
  | _ :: _, none => .complete
  | _ :: _, some e => .aborted e

/-- What breaks a response off: the first result that fits no frame, or else the fault. -/
def breakOff (items : List Envelope) (fault : Option QueryError) : Option RequestError :=
  match items.dropWhile Index.fits with
  | e :: _ => some e.oversized
  | [] => fault.map fun e => .streamAborted e.message

def ending (items : List Envelope) (fault : Option QueryError) : ResponseState :=
  closing (items.takeWhile Index.fits) (breakOff items fault)

/-- The frames that a response writes: those of the results in front of one that fits none. -/
def frameable (items : List Envelope) : List Bytes :=
  (items.takeWhile Index.fits).map Envelope.framed

variable {items taken left : List Envelope} {e : Envelope} {fault : Option QueryError}
  {r : Response}

theorem takeWhile_fits (fits : ∀ e ∈ items, Index.fits e) :
    items.takeWhile Index.fits = items := by
  have all : (items ++ []).takeWhile Index.fits = items ++ [].takeWhile Index.fits :=
    List.takeWhile_append_of_pos fits
  rwa [List.takeWhile_nil, List.append_nil] at all

theorem ending_of_fits (fits : ∀ e ∈ items, Index.fits e) (fault : Option QueryError) :
    ending items fault = closing items (fault.map fun e => .streamAborted e.message) := by
  have rest : (items ++ []).dropWhile Index.fits = [].dropWhile Index.fits :=
    List.dropWhile_append_of_pos fits
  rw [List.append_nil, List.dropWhile_nil] at rest
  rw [ending, breakOff, rest, takeWhile_fits fits]

theorem takeWhile_unfit (fits : ∀ e ∈ taken, Index.fits e) (large : ¬Index.fits e)
    (later : List Envelope) : (taken ++ e :: later).takeWhile Index.fits = taken := by
  rw [List.takeWhile_append_of_pos fits, List.takeWhile_cons_of_neg large, List.append_nil]

theorem ending_of_unfit (fits : ∀ e ∈ taken, Index.fits e) (large : ¬Index.fits e)
    (later : List Envelope) (fault : Option QueryError) :
    ending (taken ++ e :: later) fault = closing taken (some e.oversized) := by
  have rest : (taken ++ e :: later).dropWhile Index.fits = e :: later := by
    rw [List.dropWhile_append_of_pos fits, List.dropWhile_cons_of_neg large]
  rw [ending, breakOff, rest, takeWhile_unfit fits large]

/-- All results fit a frame, or there is a first one that does not. -/
theorem exists_unfit (items : List Envelope) :
    (∀ e ∈ items, Index.fits e) ∨ ∃ first e later, items = first ++ e :: later ∧
      (∀ e ∈ first, Index.fits e) ∧ ¬Index.fits e := by
  induction items with
  | nil => exact .inl fun e mem => by cases mem
  | cons e items ih =>
    by_cases here : Index.fits e
    · rcases ih with fits | ⟨first, e', later, rfl, fits, large⟩
      · exact .inl (List.forall_mem_cons.2 ⟨here, fits⟩)
      · exact .inr ⟨e :: first, e', later, rfl, List.forall_mem_cons.2 ⟨here, fits⟩, large⟩
    · exact .inr ⟨[], e, items, rfl, fun e mem => (by cases mem), here⟩

theorem ending_spec (items : List Envelope) (fault : Option QueryError) :
    Ending items fault (ending items fault) := by
  rcases exists_unfit items with fits | ⟨first, e, later, rfl, fits, large⟩
  · rw [ending_of_fits fits]
    cases items with
    | nil =>
      cases fault with
      | none => exact .empty
      | some e => exact .failed e
    | cons e items =>
      cases fault with
      | none => exact .complete (List.cons_ne_nil e items) fits
      | some e' => exact .cutOff (List.cons_ne_nil e items) fits e'
  · rw [ending_of_unfit fits large]
    cases first with
    | nil => exact .unfit large later fault
    | cons e' first => exact .broken (List.cons_ne_nil e' first) fits large later fault

theorem isOpen_closing (p : Producer) (why : Option RequestError) (frames : List Bytes) :
    isOpen ⟨p, closing taken why, frames⟩ = false := by
  cases taken <;> cases why <;> rfl

/-! ### What is to come -/

/-- What the channel is still to bring of results and a fault. -/
def coming (items : List Envelope) (fault : Option QueryError) :
    List (Except QueryError Envelope) :=
  items.map .ok ++ (fault.map .error).toList

theorem told_script (items : List Envelope) (fault : Option QueryError) :
    (Emission.script items fault).map Emission.told = coming items fault := by
  rw [Emission.script, List.map_append, List.map_map]
  cases fault <;> rfl

variable {rest : List (Except QueryError Envelope)}

theorem coming_eq_cons_ok (h : coming left fault = .ok e :: rest) :
    ∃ later, left = e :: later ∧ rest = coming later fault := by
  cases left with
  | nil => cases fault <;> cases h
  | cons e' later =>
    cases h
    exact ⟨later, rfl, rfl⟩

theorem coming_eq_cons_error {e : QueryError} (h : coming left fault = .error e :: rest) :
    left = [] ∧ fault = some e ∧ rest = [] := by
  cases left with
  | nil =>
    cases fault with
    | none => cases h
    | some e' =>
      cases h
      exact ⟨rfl, rfl, rfl⟩
  | cons e' later => cases h

theorem coming_eq_nil (h : coming left fault = []) : left = [] ∧ fault = none := by
  cases left with
  | nil =>
    cases fault with
    | none => exact ⟨rfl, rfl⟩
    | some e => cases h
  | cons e later => cases h

/-- Nothing comes after a fault. -/
theorem coming_eq_append_error {e : QueryError} {queue : List (Except QueryError Envelope)}
    (h : coming left fault = queue ++ .error e :: rest) : rest = [] := by
  induction queue generalizing left with
  | nil => exact (coming_eq_cons_error h).2.2
  | cons item queue ih =>
    cases item with
    | ok e' =>
      obtain ⟨later, -, more⟩ := coming_eq_cons_ok h
      exact ih more.symm
    | error e' =>
      have none := (coming_eq_cons_error h).2.2
      simp at none

/-! ### The state of a response -/

/-- A response that has not ended, with the results the writer has taken and those to come. -/
structure Flows (fault : Option QueryError) (taken left : List Envelope) (r : Response) :
    Prop where
  room : 0 < r.producer.channel.capacity
  listening : r.producer.channel.isCancelled = false
  coming : r.producer.channel.queue ++ r.producer.script.map Emission.told = coming left fault
  sink : r.producer.state = .running ∧ r.producer.channel.sinkOpen = true ∨
    r.producer.state ≠ .running ∧ r.producer.channel.sinkOpen = false ∧ r.producer.script = []
  fits : ∀ e ∈ taken, Index.fits e
  writer : r.state = .opening ∧ r.frames = [] ∧ taken = [] ∨
    (∃ e, r.state = .holding e.framed ∧ r.frames = [] ∧ taken = [e]) ∨
    r.state = .streaming ∧ r.frames = taken.map Envelope.framed ∧ taken ≠ []

inductive Streams (items : List Envelope) (fault : Option QueryError) (r : Response) : Prop
  | flowing (taken left : List Envelope) (all : items = taken ++ left)
      (flows : Flows fault taken left r)
  | ended (state : r.state = ending items fault) (frames : r.frames = frameable items)

theorem streams_start (buffer : Nat) (items : List Envelope) (fault : Option QueryError) :
    Streams items fault (start buffer (Emission.script items fault)) := by
  refine .flowing [] items rfl ⟨?_, rfl, told_script items fault, .inl ⟨rfl, rfl⟩, ?_,
    .inl ⟨rfl, rfl, rfl⟩⟩
  · exact Nat.lt_of_lt_of_le Nat.one_pos (Nat.le_max_left 1 buffer)
  · intro e mem
    cases mem

theorem isOpen_flows (h : Flows fault taken left r) : r.isOpen := by
  rcases h.writer with ⟨state, _⟩ | ⟨e, state, _⟩ | ⟨state, _⟩
  all_goals rw [isOpen, state]

theorem isOpen_of_ending (state : r.state = ending items fault) : r.isOpen = false := by
  obtain ⟨producer, state', frames⟩ := r
  obtain rfl : state' = ending items fault := state
  exact isOpen_closing producer _ frames

theorem Flows.streamOpen (h : Flows fault taken left r) :
    r.producer.channel.streamOpen = true := by
  have listening := h.listening
  rw [Channel.isCancelled, Bool.or_eq_false_iff] at listening
  simpa using listening.2

/-! ### The producer goes on -/

/-- The producer has gone on and left something to read, or will bring nothing more. -/
structure Readied (fault : Option QueryError) (taken left : List Envelope) (r r' : Response) :
    Prop where
  flows : Flows fault taken left r'
  ready : IsReady r'
  reads : r'.toRead = r.toRead

theorem readied_finish (h : Flows fault taken left r) (running : r.producer.state = .running)
    (script : r.producer.script = []) : Readied fault taken left r (r.step .produce) := by
  have goes : r.producer.step = r.producer.stop .finished := by
    rw [Producer.step, if_neg (not_not_intro running), script]
  have arrives := h.coming
  rw [script] at arrives
  rw [step_produce, goes]
  refine ⟨⟨h.room, h.listening, arrives, .inr ⟨?_, rfl, rfl⟩, h.fits, h.writer⟩, .inr rfl, ?_⟩
  · exact fun running => by cases running
  · simp [toRead, Producer.stop, Channel.dropSink, script]

theorem readied_send {e : Envelope} {later : List Emission} (h : Flows fault taken left r)
    (running : r.producer.state = .running ∧ r.producer.channel.sinkOpen = true)
    (script : r.producer.script = .item e :: later) (room : r.producer.channel.hasRoom = true) :
    Readied fault taken left r (r.step .produce) := by
  have goes : r.producer.step = { r.producer with
      channel := r.producer.channel.push (.ok e), script := later,
      sent := r.producer.sent + 1 } := by
    rw [Producer.step, if_neg (not_not_intro running.1), script]
    simp [Channel.send_eq, h.listening, room]
  have arrives := h.coming
  rw [script, List.map_cons] at arrives
  rw [step_produce, goes]
  refine ⟨⟨h.room, h.listening, ?_, .inl running, h.fits, h.writer⟩, .inl ?_, ?_⟩
  · simpa [Channel.push, Emission.told] using arrives
  · simp [Channel.push]
  · simp only [toRead, Channel.push, script, List.length_append, List.length_cons,
      List.length_nil]
    omega

theorem readied_fail {e : QueryError} {later : List Emission} (h : Flows fault taken left r)
    (running : r.producer.state = .running) (script : r.producer.script = .fail e :: later)
    (room : r.producer.channel.hasRoom = true) :
    Readied fault taken left r (r.step .produce) := by
  have goes : r.producer.step = ({ r.producer with
      channel := (r.producer.channel.push (.error e)).dropSink } : Producer).stop .failed := by
    rw [Producer.step, if_neg (not_not_intro running), script]
    simp [Channel.fail_eq, h.streamOpen, room, script]
  have arrives := h.coming
  rw [script, List.map_cons] at arrives
  -- a fault is the last that comes, so the script is used up
  obtain rfl : later = [] := List.map_eq_nil_iff.1 (coming_eq_append_error arrives.symm)
  rw [step_produce, goes]
  refine ⟨⟨h.room, h.listening, ?_, .inr ⟨?_, rfl, rfl⟩, h.fits, h.writer⟩, .inl ?_, ?_⟩
  · simpa [Producer.stop, Channel.dropSink, Channel.push, Emission.told] using arrives
  · exact fun running => by cases running
  · simp [Producer.stop, Channel.dropSink, Channel.push]
  · simp only [toRead, Producer.stop, Channel.dropSink, Channel.push, script, List.length_append,
      List.length_cons, List.length_nil]
    omega

/-- Without room there is something in the channel, and the producer waits. -/
theorem readied_wait {emission : Emission} {later : List Emission}
    (h : Flows fault taken left r) (running : r.producer.state = .running)
    (script : r.producer.script = emission :: later) (full : ¬r.producer.channel.hasRoom) :
    Readied fault taken left r (r.step .produce) := by
  have stays : r.producer.step = r.producer := by
    rw [Producer.step, if_neg (not_not_intro running), script]
    cases emission <;> simp [Channel.send_eq, Channel.fail_eq, h.listening, h.streamOpen, full]
  rw [step_produce, stays]
  refine ⟨h, .inl fun empty => full ?_, rfl⟩
  have empty : r.producer.channel.queue = [] := empty
  rw [Channel.hasRoom, empty]
  exact decide_eq_true h.room

theorem readied_produce (h : Flows fault taken left r) :
    Readied fault taken left r (r.step .produce) := by
  rcases h.sink with running | ⟨stopped, closed, used⟩
  · cases script : r.producer.script with
    | nil => exact readied_finish h running.1 script
    | cons emission later =>
      by_cases room : r.producer.channel.hasRoom
      · cases emission with
        | item e => exact readied_send h running script room
        | fail e => exact readied_fail h running.1 script room
      · exact readied_wait h running.1 script room
  · rw [produce_stopped stopped]
    exact ⟨h, .inr closed, rfl⟩

/-! ### The writer goes on -/

/-- What the writer hears last, and what breaks the response off then. -/
inductive HearsLast (p : Producer) : Option RequestError → Prop
  | unfit (e : Envelope) (heard : p.next.1 = .item e) (large : ¬Index.fits e) :
      HearsLast p (some e.oversized)
  | fault (e : QueryError) (heard : p.next.1 = .error e) :
      HearsLast p (some (.streamAborted e.message))
  | done (heard : p.next.1 = .done) : HearsLast p none

theorem read_last {why : Option RequestError} (h : Flows fault taken left r)
    (free : r.state = .opening ∨ r.state = .streaming) (hears : HearsLast r.producer why) :
    r.read.state = closing taken why ∧ r.read.frames = taken.map Envelope.framed := by
  rcases h.writer with ⟨opening, frames, rfl⟩ | ⟨held, holding, _⟩ | ⟨streaming, frames, some⟩
  · cases hears with
    | unfit e heard large =>
      simp [Response.read, opening, heard, e.frame_of_not_fits large, close, closing, frames]
    | fault e heard => simp [Response.read, opening, heard, close, closing, frames]
    | done heard => simp [Response.read, opening, heard, close, closing, frames]
  · rw [holding] at free
    rcases free with free | free <;> cases free
  · obtain ⟨e', later, rfl⟩ := List.exists_cons_of_ne_nil some
    cases hears with
    | unfit e heard large =>
      simp [Response.read, streaming, heard, e.frame_of_not_fits large, close, closing, frames]
    | fault e heard => simp [Response.read, streaming, heard, close, closing, frames]
    | done heard => simp [Response.read, streaming, heard, close, closing, frames]

/-- What the writer hears of what is in front of the channel. -/
def hears : Except QueryError Envelope → Channel.Answer
  | .ok e => .item e
  | .error e => .error e

theorem next_of_front {item : Except QueryError Envelope}
    {later : List (Except QueryError Envelope)}
    (front : r.producer.channel.queue = item :: later) :
    r.producer.next = (hears item,
      { r.producer with channel := { r.producer.channel with queue := later } }) := by
  rw [Producer.next, Channel.next, front]
  cases item <;> rfl

theorem read_closed (closed : r.isOpen = false) : r.read = r := by
  unfold isOpen at closed
  cases state : r.state with
  | opening | holding _ | streaming => simp [state] at closed
  | _ => rw [read, state]

/-- A read that finds a result takes it over, if it fits. -/
theorem read_fitting {later : List (Except QueryError Envelope)} (h : Flows fault taken left r)
    (free : r.state = .opening ∨ r.state = .streaming)
    (front : r.producer.channel.queue = .ok e :: later) (fits : Index.fits e) :
    (∃ left', left = e :: left' ∧ Flows fault (taken ++ [e]) left' r.read) ∧
      r.read.toRead < r.toRead := by
  have next := next_of_front front
  have arrives := h.coming
  rw [front, List.cons_append] at arrives
  obtain ⟨left', rfl, more⟩ := coming_eq_cons_ok arrives.symm
  have all : ∀ e' ∈ taken ++ [e], Index.fits e' := by
    intro e' mem
    rcases List.mem_append.1 mem with mem | mem
    · exact h.fits e' mem
    · rwa [List.mem_singleton.1 mem]
  rcases h.writer with ⟨opening, frames, rfl⟩ | ⟨held, holding, _⟩ | ⟨streaming, frames, some⟩
  · have goes : r.read = { r with
        producer := { r.producer with
          channel := { r.producer.channel with queue := later } },
        state := .holding e.framed } := by
      simp [Response.read, opening, next, hears, e.frame_of_fits fits]
    rw [goes]
    refine ⟨⟨left', rfl, h.room, h.listening, more, h.sink, all,
      .inr (.inl ⟨e, rfl, frames, rfl⟩)⟩, ?_⟩
    simp [toRead, front, opening]
  · rw [holding] at free
    rcases free with free | free <;> cases free
  · have goes : r.read = { r with
        producer := { r.producer with
          channel := { r.producer.channel with queue := later } },
        state := .streaming, frames := r.frames ++ [e.framed] } := by
      simp [Response.read, streaming, next, hears, e.frame_of_fits fits, emit]
    rw [goes]
    refine ⟨⟨left', rfl, h.room, h.listening, more, h.sink, all,
      .inr (.inr ⟨rfl, by simp [frames], by simp⟩)⟩, ?_⟩
    simp [toRead, front, streaming]

theorem read_holding {first : Bytes} (h : Flows fault taken left r)
    (holding : r.state = .holding first) :
    Flows fault taken left r.read ∧ r.read.toRead < r.toRead := by
  rcases h.writer with ⟨opening, _⟩ | ⟨e, held, frames, rfl⟩ | ⟨streaming, _⟩
  · rw [holding] at opening
    cases opening
  · have goes : r.read = { r with state := .streaming, frames := [e.framed] } := by
      simp [Response.read, held, emit, frames]
    rw [goes]
    refine ⟨⟨h.room, h.listening, h.coming, h.sink, h.fits, .inr (.inr ⟨rfl, rfl, by simp⟩)⟩, ?_⟩
    simp [toRead, held]
  · rw [holding] at streaming
    cases streaming

/-- A free writer finds a result that fits, or the last that it hears, or nothing yet. -/
theorem read_free_cases (h : Flows fault taken left r)
    (free : r.state = .opening ∨ r.state = .streaming) :
    ((∃ e left', left = e :: left' ∧ Flows fault (taken ++ [e]) left' r.read) ∧
        r.read.toRead < r.toRead) ∨
      (r.read.state = ending (taken ++ left) fault ∧ r.read.frames = frameable (taken ++ left)) ∨
      r.read = r ∧ ¬IsReady r := by
  have arrives := h.coming
  cases front : r.producer.channel.queue with
  | cons item later =>
    have next := next_of_front front
    rw [front, List.cons_append] at arrives
    cases item with
    | ok e =>
      by_cases fits : Index.fits e
      · obtain ⟨⟨left', all, flows⟩, less⟩ := read_fitting h free front fits
        exact .inl ⟨⟨e, left', all, flows⟩, less⟩
      · obtain ⟨left', rfl, -⟩ := coming_eq_cons_ok arrives.symm
        refine .inr (.inl ?_)
        rw [ending_of_unfit h.fits fits, frameable, takeWhile_unfit h.fits fits]
        exact read_last h free (.unfit e (by rw [next]; rfl) fits)
    | error e =>
      obtain ⟨rfl, rfl, -⟩ := coming_eq_cons_error arrives.symm
      refine .inr (.inl ?_)
      rw [List.append_nil, ending_of_fits h.fits, frameable, takeWhile_fits h.fits]
      exact read_last h free (.fault e (by rw [next]; rfl))
  | nil =>
    have next : r.producer.next =
        (if r.producer.channel.sinkOpen then .pending else .done, r.producer) := by
      rw [Producer.next, Channel.next, front]
    rcases h.sink with ⟨_, sinkOpen⟩ | ⟨_, closed, used⟩
    · rw [sinkOpen, if_pos rfl] at next
      refine .inr (.inr ⟨?_, fun ready => ?_⟩)
      · obtain ⟨producer, state, frames⟩ := r
        rcases free with rfl | rfl
        all_goals
          rw [Response.read]
          dsimp only at next ⊢
          rw [next]
      · rcases ready with some | closed
        · exact some front
        · rw [sinkOpen] at closed
          cases closed
    · rw [front, used] at arrives
      obtain ⟨rfl, rfl⟩ := coming_eq_nil arrives.symm
      refine .inr (.inl ?_)
      rw [List.append_nil, ending_of_fits h.fits, frameable, takeWhile_fits h.fits]
      exact read_last h free (.done (by rw [next, closed]; rfl))

/-! ### Runs -/

/-- How many reads of an open response are still to come that find something. -/
def readsLeft (r : Response) : Nat := if r.isOpen then r.toRead else 0

theorem readsLeft_flows (h : Flows fault taken left r) : r.readsLeft = r.toRead :=
  if_pos (isOpen_flows h)

theorem readsLeft_of_ending (state : r.state = ending items fault) : r.readsLeft = 0 := by
  rw [readsLeft, isOpen_of_ending state]
  rfl

theorem toRead_pos (h : Flows fault taken left r) : 0 < r.toRead := by
  unfold toRead
  rcases h.writer with ⟨state, _⟩ | ⟨e, state, _⟩ | ⟨state, _⟩
  all_goals
    rw [state]
    exact Nat.succ_pos _

theorem streams_produce (h : Streams items fault r) :
    Streams items fault (r.step .produce) ∧ (r.step .produce).readsLeft = r.readsLeft ∧
      (0 < r.readsLeft → IsReady (r.step .produce)) := by
  cases h with
  | flowing taken left all flows =>
    have readied := readied_produce flows
    refine ⟨.flowing taken left all readied.flows, ?_, fun _ => readied.ready⟩
    rw [readsLeft_flows readied.flows, readsLeft_flows flows, readied.reads]
  | ended state frames =>
    have none := readsLeft_of_ending state
    refine ⟨.ended state frames, ?_, fun more => ?_⟩
    · rw [none]
      exact readsLeft_of_ending (r := r.step .produce) state
    · rw [none] at more
      cases more

theorem streams_read (h : Streams items fault r) :
    Streams items fault r.read ∧ r.read.readsLeft ≤ r.readsLeft ∧
      (0 < r.readsLeft → IsReady r → r.read.readsLeft < r.readsLeft) := by
  cases h with
  | ended state frames =>
    have none := readsLeft_of_ending state
    have same : r.read = r := read_closed (isOpen_of_ending state)
    rw [same]
    refine ⟨.ended state frames, Nat.le_refl _, fun more => ?_⟩
    rw [none] at more
    cases more
  | flowing taken left all flows =>
    have reads := readsLeft_flows flows
    have goes : ∀ {taken' left'}, items = taken' ++ left' → Flows fault taken' left' r.read →
        r.read.toRead < r.toRead → Streams items fault r.read ∧ r.read.readsLeft ≤ r.readsLeft ∧
          (0 < r.readsLeft → IsReady r → r.read.readsLeft < r.readsLeft) := by
      intro taken' left' all' flows' less
      rw [readsLeft_flows flows', reads]
      exact ⟨.flowing taken' left' all' flows', Nat.le_of_lt less, fun _ _ => less⟩
    by_cases holds : ∃ first, r.state = .holding first
    · obtain ⟨first, holding⟩ := holds
      obtain ⟨flows', less⟩ := read_holding flows holding
      exact goes all flows' less
    · have free : r.state = .opening ∨ r.state = .streaming := by
        rcases flows.writer with ⟨state, _⟩ | ⟨e, state, _⟩ | ⟨state, _⟩
        · exact .inl state
        · exact absurd ⟨_, state⟩ holds
        · exact .inr state
      rcases read_free_cases flows free with
        ⟨⟨e, left', rfl, flows'⟩, less⟩ | ⟨state, frames⟩ | ⟨same, waits⟩
      · exact goes (by simp [all]) flows' less
      · rw [← all] at state frames
        rw [readsLeft_of_ending state, reads]
        exact ⟨.ended state frames, Nat.zero_le _, fun more _ => more⟩
      · rw [same]
        exact ⟨.flowing taken left all flows, Nat.le_refl _, fun _ ready => absurd ready waits⟩

theorem progress_streams (items : List Envelope) (fault : Option QueryError) :
    Progress (Streams items fault) readsLeft := ⟨streams_produce, streams_read⟩

/-- A response has ended as the results and the fault make it end. -/
def Ends (items : List Envelope) (fault : Option QueryError) (r : Response) : Prop :=
  r.state = ending items fault ∧ r.frames = frameable items

theorem Streams.ends (h : Streams items fault r) (closed : r.isOpen = false) :
    Ends items fault r := by
  cases h with
  | ended state frames => exact ⟨state, frames⟩
  | flowing taken left all flows =>
    rw [isOpen_flows flows] at closed
    cases closed

theorem Streams.closed (h : Streams items fault r) (spent : r.readsLeft = 0) :
    r.isOpen = false := by
  cases h with
  | ended state frames => exact isOpen_of_ending state
  | flowing taken left all flows =>
    rw [readsLeft_flows flows] at spent
    exact absurd (toRead_pos flows) (by omega)

theorem ends_of_turns {events : List Event} {n : Nat} (buffer : Nat) (quiet : Undisturbed events)
    (turns : Turns n events) (enough : items.length + 3 ≤ n) :
    Ends items fault ((start buffer (Emission.script items fault)).run events) := by
  have streams := streams_start buffer items fault
  have length : (Emission.script items fault).length ≤ items.length + 1 := by
    cases fault <;> simp [Emission.script]
  have reads : (start buffer (Emission.script items fault)).readsLeft ≤
      (Emission.script items fault).length + 2 := Nat.le_refl _
  have spent := (progress_streams items fault).run_of_turns quiet streams turns (by omega)
  have there := ((progress_streams items fault).run quiet streams).1
  exact there.ends (there.closed spent)

theorem ends_ofScript (buffer : Nat) (items : List Envelope) (fault : Option QueryError) :
    Ends items fault (ofScript buffer (Emission.script items fault) none) := by
  have length : items.length ≤ (Emission.script items fault).length := by
    cases fault <;> simp [Emission.script]
  obtain ⟨events, quiet, ran, turns | closed⟩ :=
    (start buffer (Emission.script items fault)).exists_run_drive
      ((Emission.script items fault).length + 4)
  all_goals rw [ofScript, ran]
  · exact ends_of_turns buffer quiet turns (by omega)
  · have streams := streams_start buffer items fault
    exact ((progress_streams items fault).run quiet streams).1.ends closed

/-! ### Responses that have ended -/

theorem step_of_closed (closed : r.isOpen = false) (event : Event) :
    (r.step event).state = r.state ∧ (r.step event).frames = r.frames := by
  cases event with
  | produce => exact ⟨rfl, rfl⟩
  | read =>
    rw [show r.step .read = r.read from rfl, read_closed closed]
    exact ⟨rfl, rfl⟩
  | hangUp =>
    rw [step, hangUp, closed]
    exact ⟨rfl, rfl⟩

theorem run_of_closed (closed : r.isOpen = false) (events : List Event) :
    (r.run events).state = r.state ∧ (r.run events).frames = r.frames := by
  induction events generalizing r with
  | nil => exact ⟨rfl, rfl⟩
  | cons event events ih =>
    obtain ⟨state, frames⟩ := step_of_closed closed event
    obtain ⟨state', frames'⟩ := ih (step_closed closed event)
    exact ⟨state'.trans state, frames'.trans frames⟩

theorem frames_streams (h : Streams items fault r) : r.frames <+: frameable items := by
  cases h with
  | ended _ frames => exact frames ▸ List.prefix_refl _
  | flowing taken left all flows =>
    have more : frameable items = taken.map Envelope.framed ++ frameable left := by
      rw [all, frameable, List.takeWhile_append_of_pos flows.fits, List.map_append]
      rfl
    rw [more]
    rcases flows.writer with ⟨_, none, _⟩ | ⟨_, _, none, _⟩ | ⟨_, frames, _⟩
    · rw [none]
      exact List.nil_prefix
    · rw [none]
      exact List.nil_prefix
    · rw [frames]
      exact List.prefix_append _ _

/-- No frame is ever written but those in front of a result that fits none, also if the client
goes. -/
theorem frames_run (h : Streams items fault r) (events : List Event) :
    (r.run events).frames <+: frameable items := by
  by_cases quiet : Undisturbed events
  · exact frames_streams ((progress_streams items fault).run quiet h).1
  · obtain ⟨first, later, rfl, alone⟩ := List.eq_append_cons_of_mem (Classical.not_not.1 quiet)
    have before := frames_streams ((progress_streams items fault).run alone h).1
    have gone : ((r.run first).step .hangUp).frames = (r.run first).frames ∧
        ((r.run first).step .hangUp).isOpen = false := by
      rw [step, hangUp]
      split
      · exact ⟨rfl, rfl⟩
      · next closed => exact ⟨rfl, by simpa using closed⟩
    rw [run_append, show (r.run first).run (.hangUp :: later) =
      ((r.run first).step .hangUp).run later from rfl, (run_of_closed gone.2 later).2, gone.1]
    exact before

/-- What the stream of a response yields: its frames, and the error that broke it off. -/
def elements (r : Response) : List (Except RequestError Bytes) :=
  r.frames.map .ok ++ match r.state with
    | .aborted e => [.error e]
    | _ => []

/-- A request is refused before any byte is sent, or all that is sent comes with status 200. -/
def Answered (r : Response) : Prop :=
  (∃ reason, r.state = .refused (.streamAborted reason) ∧
    r.answer = .ofError (.streamAborted reason) ∧ r.answer.status = 400 ∧ r.body = []) ∨
  (∀ e, r.state ≠ .refused e) ∧ r.answer.status = 200 ∧ r.answer.body.written = r.body

/-- All results fit a frame, and no fault follows them. -/
def Clean (items : List Envelope) (fault : Option QueryError) : Prop :=
  (∀ e ∈ items, Index.fits e) ∧ fault = none

/-- A response that has ended as it has to. -/
structure Settles (items : List Envelope) (fault : Option QueryError) (r : Response) : Prop where
  state : r.state = Response.ending items fault
  ending : Ending items fault r.state
  bytes : r.body = ((items.takeWhile Index.fits).map fun e =>
    littleEndian 2 e.toBytes.length ++ e.toBytes).flatten
  answered : r.Answered
  /-- A stream that has begun yields its frames, and then one error unless it ends cleanly. -/
  streamed : (∃ e later, items = e :: later ∧ Index.fits e) →
    Clean items fault ∧ r.elements = (frameable items).map .ok ∨
      ¬Clean items fault ∧
        ∃ reason, r.elements = (frameable items).map .ok ++ [.error (.streamAborted reason)]
  recovered : ∃ payloads, Frame.decode r.body = .ok payloads ∧
    payloads.mapM Envelope.ofBytes = .ok (items.takeWhile Index.fits)
  lasting : ∀ later, (r.run later).state = r.state ∧ (r.run later).frames = r.frames

theorem answered_of_refused {reason : String}
    (state : r.state = .refused (.streamAborted reason)) (frames : r.frames = []) : r.Answered := by
  have answer : r.answer = .ofError (.streamAborted reason) := by rw [Response.answer, state]
  refine .inl ⟨reason, state, answer, ?_, by rw [body, frames]; rfl⟩
  rw [answer, Answer.ofError]
  split <;> rfl

theorem answered_of_streamed (state : r.state = .complete ∨ ∃ e, r.state = .aborted e) :
    r.Answered := by
  rcases state with state | ⟨e, state⟩
  all_goals
    refine .inr ⟨fun e refused => ?_, by rw [Response.answer, state],
      by rw [Response.answer, state]; rfl⟩
    rw [state] at refused
    cases refused

theorem Ending.answered (h : Ending items fault r.state) (frames : r.frames = frameable items) :
    r.Answered := by
  generalize state : r.state = ended at h
  cases h with
  | empty =>
    have answer : r.answer = .ofStatus 200 := by rw [Response.answer, state]
    refine .inr ⟨fun e refused => ?_, by rw [answer]; rfl, by rw [answer, body, frames]; rfl⟩
    rw [state] at refused
    cases refused
  | failed e => exact answered_of_refused state frames
  | unfit large later =>
    refine answered_of_refused state ?_
    rw [frames, frameable, List.takeWhile_cons_of_neg large]
    rfl
  | complete => exact answered_of_streamed (.inl state)
  | cutOff | broken => exact answered_of_streamed (.inr ⟨_, state⟩)

theorem Ending.streamed (h : Ending items fault r.state) (frames : r.frames = frameable items)
    (first : ∃ e later, items = e :: later ∧ Index.fits e) :
    Clean items fault ∧ r.elements = (frameable items).map .ok ∨
      ¬Clean items fault ∧
        ∃ reason, r.elements = (frameable items).map .ok ++ [.error (.streamAborted reason)] := by
  obtain ⟨producer, state, frames'⟩ := r
  obtain rfl : frames' = frameable items := frames
  obtain ⟨e, later, shape, fits⟩ := first
  dsimp only at h
  cases h with
  | empty | failed => cases shape
  | unfit large =>
    cases shape
    exact absurd fits large
  | complete _ all => exact .inl ⟨⟨all, rfl⟩, List.append_nil _⟩
  | cutOff _ _ e => exact .inr ⟨fun clean => (by cases clean.2), e.message, rfl⟩
  | broken _ _ large =>
    exact .inr ⟨fun clean => large (clean.1 _ (by simp)), _, rfl⟩

/-- An envelope that fits a frame is read back from its bytes. -/
theorem ofBytes_of_fits (fits : Index.fits e) : Envelope.ofBytes e.toBytes = .ok e := by
  have small : e.toBytes.length ≤ 65535 := of_decide_eq_true fits
  refine Envelope.canonical.read_write _ ?_
  simp only [Envelope.toBytes, Wire.putBytes, List.length_append] at small
  exact ⟨by omega, by omega⟩

theorem Ends.settles (h : Ends items fault r) : r.Settles items fault := by
  obtain ⟨state, frames⟩ := h
  have ending : Ending items fault r.state := state ▸ ending_spec items fault
  have emitted : ∀ e ∈ items.takeWhile Index.fits, Index.fits e :=
    fun e mem => List.all_eq_true.1 List.all_takeWhile e mem
  refine ⟨state, ending, ?_, ending.answered frames, ending.streamed frames, ?_,
    run_of_closed (isOpen_of_ending state)⟩
  · rw [body, frames]
    rfl
  · refine ⟨(items.takeWhile Index.fits).map Envelope.toBytes, ?_, ?_⟩
    · have whole : r.body =
          (((items.takeWhile Index.fits).map Envelope.toBytes).map Frame.of).flatten := by
        rw [body, frames, List.map_map]
        rfl
      rw [whole]
      refine Frame.decode_flatten fun p mem => ?_
      obtain ⟨e, found, rfl⟩ := List.mem_map.1 mem
      exact of_decide_eq_true (emitted e found)
    · rw [mapM_eq_ok_iff, List.map_map]
      exact List.map_congr_left fun e mem => ofBytes_of_fits (emitted e mem)

/-- Whatever the size of the channel and the order in which producer and writer go on, a query
that brings the given results and ends so has one response. At no time is more written than the
frames of the results in front of the first that fits none. In every order of steps the response
has not ended or has settled, with enough turns of producer and writer it has, and so does the
response that a search is answered with, if its channel is made. -/
theorem response_determined (buffer : Nat) (items : List Envelope) (fault : Option QueryError) :
    let begun := start buffer (Emission.script items fault)
    (∀ events, (begun.run events).frames <+: frameable items) ∧
    (∀ events, Undisturbed events →
      (begun.run events).isOpen ∨ (begun.run events).Settles items fault) ∧
    (∀ events, Undisturbed events → Turns (items.length + 3) events →
      (begun.run events).Settles items fault) ∧
    (ofScript buffer (Emission.script items fault) none).Settles items fault ∧
    ∀ makes : Nat → Bool, ofScript? makes buffer (Emission.script items fault) none =
      if makes (max 1 buffer) then some (ofScript buffer (Emission.script items fault) none)
      else none := by
  intro begun
  have streams : Streams items fault begun := streams_start buffer items fault
  refine ⟨frames_run streams, fun events quiet => ?_,
    fun events quiet turns => (ends_of_turns buffer quiet turns (Nat.le_refl _)).settles,
    (ends_ofScript buffer items fault).settles, fun makes => ofScript?_eq makes buffer _ none⟩
  cases going : (begun.run events).isOpen with
  | true => exact .inl rfl
  | false => exact .inr (((progress_streams items fault).run quiet streams).1.ends going).settles

end Response

/-! ### Searches -/

/-- What a query makes the index send: results, or a fault alone. -/
theorem Index.emissions_script (query : Envelope) (listing : Except RecordError (List Snapshot)) :
    ∃ items fault, emissions query listing = Emission.script items fault := by
  unfold emissions
  split
  · exact ⟨[], some _, rfl⟩
  · split
    · exact ⟨[], some _, rfl⟩
    · exact ⟨_, none, (List.append_nil _).symm⟩

namespace Cafe

open Response (Undisturbed start)

/-- A response that has ended is the one that the search makes, in whichever order of steps. -/
theorem search_settles (c : Cafe) (peer : String) (query : Envelope)
    {events : List Response.Event} (quiet : Undisturbed events)
    (closed : ((start c.config.queryBuffer (c.emissions peer query)).run events).isOpen = false) :
    ((start c.config.queryBuffer (c.emissions peer query)).run events).state =
        (c.search peer query).state ∧
      ((start c.config.queryBuffer (c.emissions peer query)).run events).frames =
        (c.search peer query).frames := by
  -- the search itself is one of the orders, in which the response has ended too
  obtain ⟨items, fault, shape⟩ := Index.emissions_script query (c.snapshotsOf peer)
  rw [← emissions] at shape
  rw [shape] at closed ⊢
  rw [search, shape]
  have streams := Response.streams_start c.config.queryBuffer items fault
  have ended := ((Response.progress_streams items fault).run quiet streams).1.ends closed
  have made := Response.ends_ofScript c.config.queryBuffer items fault
  exact ⟨ended.1.trans made.1.symm, ended.2.trans made.2.symm⟩

end Cafe

end Relay
