import Relay.Proofs.Search.Talk
import Relay.Search.Response

/-!
# Telling a producer to stop

The consumer of a search is the writer of its response. It drops its end of the channel on every way
out, whatever the producer does in the meantime, and so gives the signal to stop:
`query_stopped_once`.
-/

namespace Relay

open Channel (Logged)

/-! ### Responses -/

/-- What ends a response that hears it. -/
def Channel.Answer.isLast : Channel.Answer → Bool
  | .item e =>
    match e.frame with
    | .ok _ => false
    | .error _ => true
  | .error _ | .done => true
  | _ => false

/-- The producer's end has moved. -/
structure Channel.Moved (c c' : Channel) : Prop where
  spent : c'.spent = c.spent
  signalled : c'.signalled = c.signalled
  streamOpen : c'.streamOpen = c.streamOpen
  sink : c'.sinkOpen = true → c.sinkOpen = true

theorem Channel.moved_put (c : Channel) (item : Except QueryError Envelope) :
    c.Moved (c.put item) := by
  obtain ⟨sink, streamOpen, spent, signalled⟩ := Talk.put_ends c item
  exact ⟨spent, signalled, streamOpen, sink.symm.trans⟩

theorem Channel.moved_dropSink (c : Channel) : c.Moved c.dropSink :=
  ⟨rfl, rfl, rfl, fun sink => by cases sink⟩

theorem Channel.Moved.trans {c c' c'' : Channel} (h : c.Moved c') (h' : c'.Moved c'') :
    c.Moved c'' :=
  ⟨h'.spent.trans h.spent, h'.signalled.trans h.signalled, h'.streamOpen.trans h.streamOpen,
    fun sink => h.sink (h'.sink sink)⟩

theorem Channel.moved_send (c : Channel) (e : Envelope) : c.Moved (c.send e).2 := by
  rw [send]
  split
  · exact ⟨rfl, rfl, rfl, id⟩
  · split
    · exact c.moved_put _
    · exact ⟨rfl, rfl, rfl, id⟩
    · exact ⟨rfl, rfl, rfl, id⟩

theorem Channel.moved_fail (c : Channel) (e : QueryError) : c.Moved (c.fail e).2 := by
  rw [fail]
  split
  · exact (c.moved_put _).trans (moved_dropSink _)
  · exact ⟨rfl, rfl, rfl, id⟩
  · exact c.moved_dropSink

theorem Producer.moved_step (p : Producer) : p.channel.Moved p.step.channel := by
  unfold Producer.step
  split
  · exact ⟨rfl, rfl, rfl, id⟩
  · split
    · exact p.channel.moved_dropSink
    · next e rest script =>
      have sent := p.channel.moved_send e
      split
      · next channel found =>
        rw [found] at sent
        exact sent
      · exact ⟨rfl, rfl, rfl, id⟩
      · exact p.channel.moved_dropSink
    · next e rest script =>
      have failed := p.channel.moved_fail e
      split
      · next channel found =>
        rw [found] at failed
        exact failed.trans (Channel.moved_dropSink _)
      · exact ⟨rfl, rfl, rfl, id⟩

theorem Producer.step_of_gone {p : Producer} (gone : p.channel.streamOpen = false) :
    p.step.state ≠ .running := by
  by_cases running : p.state = .running
  · rw [Producer.step, if_neg (not_not_intro running)]
    obtain _ | ⟨e | e, rest⟩ := p.script
    · simp [Producer.stop]
    · have send : p.channel.send e = (.cancelled, p.channel) := by
        simp [Channel.send_eq, Channel.isCancelled, gone]
      simp [send, Producer.stop]
    · have fail : p.channel.fail e = (.failed, p.channel.dropSink) := by
        simp [Channel.fail_eq, gone]
      simp [fail, Producer.stop]
  · rw [Producer.step, if_pos running]
    exact running

namespace Response

/-- What can happen to a response whose producer is any. Of what that does with its end of the
channel, these are the moves that change it. -/
inductive Move where
  | own (event : Event)
  | put (item : Except QueryError Envelope)
  | dropSink

def withChannel (r : Response) (channel : Channel) : Response :=
  { r with producer := { r.producer with channel } }

def move (r : Response) : Move → Response
  | .own event => r.step event
  | .put item => r.withChannel (r.producer.channel.put item)
  | .dropSink => r.withChannel r.producer.channel.dropSink

def moves (r : Response) (moves : List Move) : Response := moves.foldl move r

/-- The response holds its end of the channel as long as it is open, and has told a producer that
is there when it is not. -/
structure Wired (r : Response) : Prop where
  spent : r.producer.channel.spent = !r.isOpen
  told : r.producer.channel.sinkOpen = true → r.producer.channel.signalled = !r.isOpen
  streamOpen : r.producer.channel.streamOpen = r.isOpen

variable {r : Response}

theorem wired_start (buffer : Nat) (script : List Emission) : Wired (start buffer script) :=
  ⟨rfl, fun _ => rfl, rfl⟩

theorem Wired.moved (h : Wired r) {p : Producer} (moved : r.producer.channel.Moved p.channel) :
    Wired { r with producer := p } :=
  ⟨moved.spent.trans h.spent, fun sink => moved.signalled.trans (h.told (moved.sink sink)),
    moved.streamOpen.trans h.streamOpen⟩

/-- Each of the ends drops the consumer's end. -/
theorem Wired.close (h : Wired r) (opened : r.isOpen = true) {state : ResponseState}
    (ended : (r.close state).isOpen = false) : Wired (r.close state) := by
  have unspent := h.spent
  rw [opened] at unspent
  constructor
  · rw [ended]
    rfl
  · intro sink
    have there : r.producer.channel.sinkOpen = true := sink
    show (r.producer.channel.signalled || !r.producer.channel.spent &&
      r.producer.channel.sinkOpen) = _
    rw [ended, unspent, there]
    exact Bool.or_true _
  · rw [ended]
    rfl

theorem Wired.emit {state : ResponseState} {frames : List Bytes} (h : Wired r)
    (opened : r.isOpen = true) (goes : isOpen ⟨r.producer, state, frames⟩ = true) :
    Wired ⟨r.producer, state, frames⟩ := by
  have same : isOpen ⟨r.producer, state, frames⟩ = r.isOpen := goes.trans opened.symm
  exact ⟨h.spent.trans (by rw [same]), fun sink => (h.told sink).trans (by rw [same]),
    h.streamOpen.trans same.symm⟩

theorem Wired.next (h : Wired r) : Wired { r with producer := r.producer.next.2 } := by
  refine h.moved ?_
  rw [Producer.next, Channel.next]
  obtain _ | ⟨_ | _, _⟩ := r.producer.channel.queue
  all_goals exact ⟨rfl, rfl, rfl, id⟩

/-- A read that looks at the channel ends the response if what it hears is the last. -/
theorem read_free (h : Wired r) (free : r.state = .opening ∨ r.state = .streaming) :
    Wired r.read ∧ r.read.isOpen = !r.producer.next.1.isLast := by
  have opened : isOpen { r with producer := r.producer.next.2 } = true := by
    obtain state | state := free
    all_goals rw [isOpen, state]
  have taken := h.next
  obtain state | state := free
  all_goals
    rw [read, state]
    dsimp only
    cases heard : r.producer.next.1 with
    | item e =>
      dsimp only [Channel.Answer.isLast]
      cases e.frame with
      | ok frame => exact ⟨taken.emit opened rfl, rfl⟩
      | error fault =>
        rw [state] at taken opened
        exact ⟨taken.close opened rfl, rfl⟩
    | error e | done =>
      rw [state] at taken opened
      exact ⟨taken.close opened rfl, rfl⟩
    | _ =>
      rw [state] at taken opened
      exact ⟨taken, opened⟩

theorem wired_read (h : Wired r) : Wired r.read := by
  cases state : r.state with
  | opening => exact (read_free h (.inl state)).1
  | streaming => exact (read_free h (.inr state)).1
  | holding first =>
    have opened : r.isOpen = true := by rw [isOpen, state]
    rw [read, state]
    exact h.emit opened rfl
  | _ =>
    rw [read, state]
    exact h

theorem wired_hangUp (h : Wired r) : Wired r.hangUp ∧ r.hangUp.isOpen = false := by
  cases opened : r.isOpen with
  | true =>
    rw [hangUp, if_pos opened]
    exact ⟨h.close opened rfl, rfl⟩
  | false =>
    rw [hangUp, opened]
    exact ⟨h, opened⟩

theorem wired_moves (h : Wired r) (ms : List Move) : Wired (r.moves ms) := by
  induction ms generalizing r with
  | nil => exact h
  | cons m ms ih =>
    refine ih ?_
    cases m with
    | own event =>
      cases event with
      | produce => exact h.moved r.producer.moved_step
      | read => exact wired_read h
      | hangUp => exact (wired_hangUp h).1
    | put item => exact h.moved (Channel.moved_put _ item)
    | dropSink => exact h.moved (Channel.moved_dropSink _)

theorem step_closed {r : Response} (h : r.isOpen = false) (event : Event) :
    (r.step event).isOpen = false := by
  cases event with
  | produce => exact h
  | hangUp =>
    rw [step, hangUp, h]
    exact h
  | read =>
    unfold isOpen at h
    rw [step, read]
    cases state : r.state with
    | opening | holding _ | streaming => simp [state] at h
    | _ => rw [isOpen, state]

theorem moves_closed (h : r.isOpen = false) (ms : List Move) : (r.moves ms).isOpen = false := by
  induction ms generalizing r with
  | nil => exact h
  | cons m ms ih =>
    cases m with
    | own event => exact ih (step_closed h event)
    | put item => exact ih (r := r.withChannel _) h
    | dropSink => exact ih (r := r.withChannel _) h

end Response

/-- In any run over a channel the first of the cancels and the drop uses up the signal and no other
call does, so at most one `cancel` says that it was the first. From then on every send that looks
is refused, and at most the one that had looked before is still told that it is sent; once the
stream is gone, at most one that had got room, and nothing is in the channel or heard. What the
consumer has heard is a first part of what was handed over, which is results and then at most an
error, and all of it when it hears the end. Whatever the producer does, a response tells it to stop
when it ends, if it still has its sink. It ends when it hears an error, the end or a result that
fits no frame, and when the client goes; the producer of its script then stops. -/
theorem query_stopped_once :
    (∀ (buffer : Nat) (moves : List Talk.Move),
      let t := (Talk.start buffer).run moves
      (t.log.filter Logged.raised = (t.log.filter Logged.stops).take 1 ∧
        (∀ entry ∈ t.log, entry.claims = true → entry.raised = true) ∧
        (t.log.filter Logged.claims).length ≤ 1) ∧
      (t.channel.streamOpen = false → t.log.any Logged.stops = true) ∧
      (t.log.any Logged.stops = true → ∀ later : List Talk.Move,
        let t' := t.run later
        Talk.results t.log <+: Talk.results t'.log ∧
        Talk.results t'.log <+: Talk.results t.log ++ t.inFlight.toList ∧
        ∀ e, t'.call = some (.looking e) → t'.step .goOn = t'.finish (.ok e) .refused) ∧
      (t.channel.streamOpen = false → ∀ later : List Talk.Move,
        let t' := t.run later
        Talk.results t'.log <+: Talk.results t.log ++ t.granted.toList ∧
        t'.channel.queue = [] ∧ Talk.heard t'.log = Talk.heard t.log ∧
        ∀ e, t'.call = some (.looking e) ∨ t'.call = some (.asking (.ok e)) →
          t'.step .goOn = t'.finish (.ok e) .refused) ∧
      Talk.heard t.log <+: Talk.handed t.log ∧
      (∃ fault : Option QueryError,
        Talk.handed t.log = (Talk.results t.log).map .ok ++ fault.toList.map .error) ∧
      (t.log.any Logged.ends = true → Talk.heard t.log = Talk.handed t.log)) ∧
    (∀ (buffer : Nat) (script : List Emission) (moves : List Response.Move),
      let r := (Response.start buffer script).moves moves
      r.producer.channel.spent = !r.isOpen ∧
      (r.producer.channel.sinkOpen = true → r.producer.channel.signalled = !r.isOpen) ∧
      r.producer.channel.streamOpen = r.isOpen ∧
      (r.isOpen = false → (r.step .produce).producer.state ≠ .running ∧
        ∀ later, (r.moves later).isOpen = false) ∧
      (r.step .hangUp).isOpen = false ∧
      (r.state = .opening ∨ r.state = .streaming →
        (r.step .read).isOpen = !r.producer.next.1.isLast)) := by
  constructor
  · intro buffer moves t
    have sound : Talk.Sound t := (Talk.sound_start buffer).run moves
    have signals := sound.signals
    have account := sound.account
    refine ⟨⟨signals.raised, signals.claims, ?_⟩, fun gone => ?_, fun stopped later => ?_,
      fun gone later => ?_, account.order, ?_, fun ended => ?_⟩
    · have le : (t.log.filter Logged.claims).length ≤ (t.log.filter Logged.raised).length := by
        rw [← List.countP_eq_length_filter, ← List.countP_eq_length_filter]
        exact List.countP_mono_left signals.claims
      rw [signals.raised, List.length_take] at le
      exact Nat.le_trans le (Nat.min_le_left _ _)
    · exact signals.spent.symm.trans (sound.held.spent (sound.held.leaving gone).1)
    · obtain ⟨spent, within⟩ := sound.run_of_spent (signals.spent.trans stopped) later
      refine ⟨within.grow, (List.prefix_append _ _).trans within.stay, fun e calls => ?_⟩
      have late := sound.run later
      have sink := late.held.sink (by rw [calls]; exact Option.some_ne_none _)
      refine Talk.goOn_of_isCancelled ?_ calls
      rw [Channel.isCancelled, late.signals.told sink, spent, Bool.true_or]
    · obtain ⟨gone', same, within⟩ := Talk.run_of_gone gone later
      exact ⟨(List.prefix_append _ _).trans within.stay, ((sound.run later).held.leaving gone').2,
        same, fun e => Talk.goOn_of_gone gone'⟩
    · obtain ⟨items, fault, shape, _⟩ := account.shape
      have results : Talk.results t.log = items := by
        rw [Talk.results, shape]
        cases fault <;> simp [List.filterMap_map, Function.comp_def, Except.toOption]
      exact ⟨fault, results ▸ shape⟩
    · exact (account.drained (List.any_eq_true.1 ended)).2
  · intro buffer script moves r
    have wired := Response.wired_moves (Response.wired_start buffer script) moves
    refine ⟨wired.spent, wired.told, wired.streamOpen, fun closed => ⟨?_, ?_⟩, ?_, ?_⟩
    · exact Producer.step_of_gone (wired.streamOpen.trans closed)
    · exact Response.moves_closed closed
    · exact (Response.wired_hangUp wired).2
    · exact fun free => (Response.read_free wired free).2

namespace Talk

/-- A consumer that cancels twice and drops, and a producer that has asked for room when it is
told to stop. -/
def impatient : List Move :=
  let e : Envelope := { kind := .query, payload := [] }
  [.send e, .goOn, .goOn, .goOn, .send e, .goOn, .goOn, .next, .goOn, .goOn, .cancel, .goOn,
    .send e, .goOn, .cancel, .next, .dropStream, .close]

theorem impatient_stops_once :
    let t := (start 1).run impatient
    (heard t.log).length = 2 ∧ (t.log.filter Logged.raised).length = 1 ∧
      ∀ later, (results (t.run later).log).length = 2 := by
  have sent : (results ((start 1).run impatient).log).length = 2 := by decide +kernel
  have idle : ((start 1).run impatient).inFlight = none := rfl
  obtain ⟨⟨raised, _⟩, _, after, _⟩ := query_stopped_once.1 1 impatient
  refine ⟨by decide +kernel, ?_, fun later => ?_⟩
  · rw [raised]
    decide +kernel
  · obtain ⟨grow, stay, -⟩ := after (by decide +kernel) later
    rw [idle, Option.toList_none, List.append_nil] at stay
    exact (Nat.le_antisymm stay.length_le grow.length_le).trans sent

/-- The consumer cancels when a send has looked, and no room was asked for yet. -/
def overtaken (e : Envelope) : List Move := [.send e, .goOn, .cancel, .goOn, .goOn, .next]

/-- The send returns after the signal and adds to the results, and a response that is empty leaves
the signal unset, as its producer has gone. -/
theorem overtaken_sent :
    let e : Envelope := { kind := .query, payload := [] }
    ((start 1).run (overtaken e)).log =
      [⟨.cancel, .flag true, true⟩, ⟨.send e, .sent, false⟩, ⟨.next, .item e, false⟩] ∧
    ((Response.start 1 []).run [.produce, .read]).state = .empty ∧
    ((Response.start 1 []).run [.produce, .read]).producer.channel.signalled = false :=
  ⟨rfl, rfl, rfl⟩

end Talk

end Relay
