import Relay.Search.Talk

/-!
# Both ends of a query channel

Producer and consumer move in any order. Of the calls that may use up the signal the first does and
no other (`Signals`). From then on a send that looks is refused; only one that had looked before may
still get room (`Sound.within_of_spent`). What the consumer has heard is at any time a first part of
what the producer was told is sent (`Account`).
-/

namespace Relay

/-- What the consumer hears of an item. -/
def Channel.Answer.ofItem : Except QueryError Envelope → Channel.Answer
  | .ok e => .item e
  | .error e => .error e

namespace Channel.Logged

/-- A call that is to tell the producer to stop. -/
def stops (entry : Logged) : Bool :=
  match entry.event with
  | .cancel | .dropStream => true
  | _ => false

/-- A `cancel` that claims to be the first. -/
def claims (entry : Logged) : Bool :=
  match entry.event, entry.answer with
  | .cancel, .flag first => first
  | _, _ => false

def handed (entry : Logged) : Option (Except QueryError Envelope) :=
  match entry.event, entry.answer with
  | .send e, .sent => some (.ok e)
  | .fail e, .failed => some (.error e)
  | _, _ => none

def heard (entry : Logged) : Option (Except QueryError Envelope) :=
  match entry.event, entry.answer with
  | .next, .item e => some (.ok e)
  | .next, .error e => some (.error e)
  | _, _ => none

/-- The consumer was told that nothing more comes. -/
def ends (entry : Logged) : Bool :=
  match entry.event, entry.answer with
  | .next, .done => true
  | _, _ => false

/-- The call says nothing of the signal or of what is sent. -/
structure Quiet (entry : Logged) : Prop where
  raised : entry.raised = false
  stops : entry.stops = false
  claims : entry.claims = false
  handed : entry.handed = none
  heard : entry.heard = none
  ends : entry.ends = false

end Channel.Logged

open Channel (Sending Logged)

namespace Talk

def handed (log : List Logged) : List (Except QueryError Envelope) := log.filterMap Logged.handed

def heard (log : List Logged) : List (Except QueryError Envelope) := log.filterMap Logged.heard

/-- The results of which the producer was told that they are sent. -/
def results (log : List Logged) : List Envelope := (handed log).filterMap Except.toOption

/-- The result of a send that has found no signal to stop, and has not returned. -/
def inFlight (t : Talk) : Option Envelope :=
  match t.call with
  | some (.asking (.ok e)) | some (.putting (.ok e)) => some e
  | _ => none

/-- The result of a send that has got room for it. -/
def granted (t : Talk) : Option Envelope :=
  match t.call with
  | some (.putting (.ok e)) => some e
  | _ => none

/-! ### What one move can do -/

inductive Turn (t : Talk) : Talk → Prop
  | stay : Turn t t
  | begun (item : Except QueryError Envelope) (free : t.sinkFree = true) :
      Turn t { t with call := some (.ofItem item) }
  | looked (e : Envelope) (calls : t.call = some (.looking e))
      (quiet : t.channel.isCancelled = false) : Turn t { t with call := some (.asking (.ok e)) }
  | granted (item : Except QueryError Envelope) (calls : t.call = some (.asking item))
      (stream : t.channel.streamOpen = true) : Turn t { t with call := some (.putting item) }
  | waits (item : Except QueryError Envelope) (calls : t.call = some (.asking item)) :
      Turn t { t with call := some (.ofItem item) }
  | put (item : Except QueryError Envelope) (calls : t.call = some (.putting item)) :
      Turn t ({ t with channel := t.channel.put item }.finish item .delivered)
  | unheard (e : QueryError) (calls : t.call = some (.asking (.error e)))
      (gone : t.channel.streamOpen = false) : Turn t (t.finish (.error e) .refused)
  | returned (item : Except QueryError Envelope) (o : Channel.Outcome)
      (quiet : (o.logged item).Quiet) : Turn t (t.finish item o)
  | noted (entry : Logged) (quiet : entry.Quiet) : Turn t (t.note entry)
  | left (free : t.sinkFree = true) :
      Turn t ({ t with channel := t.channel.dropSink }.note ⟨.dropSink, .dropped, false⟩)
  | took (item : Except QueryError Envelope) (rest : List (Except QueryError Envelope))
      (free : t.streamFree = true) (front : t.channel.queue = item :: rest) :
      Turn t ({ t with channel := { t.channel with queue := rest } }.note
        ⟨.next, .ofItem item, false⟩)
  | drained (free : t.streamFree = true) (front : t.channel.queue = [])
      (sink : t.channel.sinkOpen = false) : Turn t (t.note ⟨.next, .done, false⟩)
  | cancelled (free : t.streamFree = true) :
      Turn t ({ t with channel := t.channel.cancel.2 }.note
        ⟨.cancel, .flag t.channel.cancel.1, t.channel.cancel.1⟩)
  | dropped (free : t.streamFree = true) :
      Turn t ({ t with channel := t.channel.cancel.2, leaving := true }.note
        ⟨.dropStream, .dropped, t.channel.cancel.1⟩)
  | closed (leaving : t.leaving = true) : Turn t { t with channel := t.channel.close }

theorem quiet_refused (e : Envelope) : (Channel.Outcome.refused.logged (.ok e)).Quiet :=
  ⟨rfl, rfl, rfl, rfl, rfl, rfl⟩

theorem quiet_abandoned (item : Except QueryError Envelope) :
    (Channel.Outcome.abandoned.logged item).Quiet := by
  cases item
  all_goals exact ⟨rfl, rfl, rfl, rfl, rfl, rfl⟩

theorem turn_goOn (t : Talk) : Turn t t.goOn := by
  unfold goOn
  split
  · exact .stay
  · next e calls =>
    split
    · exact .returned _ _ (quiet_refused e)
    · next free => exact .looked e calls (by simpa using free)
  · next item calls =>
    cases room : t.channel.ask with
    | full => exact .waits item calls
    | free =>
      refine .granted item calls ?_
      cases stream : t.channel.streamOpen with
      | true => rfl
      | false => simp [Channel.ask, stream] at room
    | closed =>
      have gone : t.channel.streamOpen = false := by
        cases stream : t.channel.streamOpen with
        | false => rfl
        | true => cases roomy : t.channel.hasRoom <;> simp [Channel.ask, stream, roomy] at room
      cases item with
      | ok e => exact .returned _ _ (quiet_refused e)
      | error e => exact .unheard e calls gone
  · next item calls => exact .put item calls

theorem turn_giveUp (t : Talk) : Turn t t.giveUp := by
  unfold giveUp
  split
  · exact .returned _ _ (quiet_abandoned _)
  · exact .returned _ _ (quiet_abandoned _)
  · exact .stay

theorem turn_next (t : Talk) (free : t.streamFree = true) :
    Turn t ({ t with channel := t.channel.next.2 }.note ⟨.next, t.channel.next.1, false⟩) := by
  cases front : t.channel.queue with
  | nil =>
    cases sink : t.channel.sinkOpen with
    | true =>
      have h : t.channel.next = (.pending, t.channel) := by simp [Channel.next, front, sink]
      rw [h]
      exact .noted _ ⟨rfl, rfl, rfl, rfl, rfl, rfl⟩
    | false =>
      have h : t.channel.next = (.done, t.channel) := by simp [Channel.next, front, sink]
      rw [h]
      exact .drained free front sink
  | cons item rest =>
    have h : t.channel.next = (.ofItem item, { t.channel with queue := rest }) := by
      cases item
      all_goals
        rw [Channel.next, front]
        rfl
    rw [h]
    exact .took item rest free front

theorem turn_step (t : Talk) (m : Move) : Turn t (t.step m) := by
  have either : ∀ {free : Bool} {t' : Talk}, (free = true → Turn t t') →
      Turn t (if free then t' else t) := by
    intro free t' acts
    cases free with
    | true => exact acts rfl
    | false => exact .stay
  cases m with
  | send e => exact either (.begun (.ok e))
  | fail e => exact either (.begun (.error e))
  | goOn => exact t.turn_goOn
  | giveUp => exact t.turn_giveUp
  | isCancelled => exact either fun _ => .noted _ ⟨rfl, rfl, rfl, rfl, rfl, rfl⟩
  | dropSink => exact either .left
  | next => exact either t.turn_next
  | cancel => exact either .cancelled
  | dropStream => exact either .dropped
  | close => exact either .closed

/-! ### The two ends -/

/-- A call has the sink, and a stream that is gone was dropped with all that was in it. -/
structure Held (t : Talk) : Prop where
  sink : t.call ≠ none → t.channel.sinkOpen = true
  leaving : t.channel.streamOpen = false → t.leaving = true ∧ t.channel.queue = []
  spent : t.leaving = true → t.channel.spent = true

theorem held_start (buffer : Nat) : Held (start buffer) where
  sink calls := absurd rfl calls
  leaving gone := by cases gone
  spent leaving := by cases leaving

theorem finish_eq (t : Talk) (item : Except QueryError Envelope) (o : Channel.Outcome) :
    t.finish item o = (match item with
      | .ok _ => { t with call := none }
      | .error _ => { t with channel := t.channel.dropSink, call := none }).note
        (o.logged item) := by
  cases item <;> rfl

theorem put_cases (c : Channel) (item : Except QueryError Envelope) :
    c.streamOpen = true ∧ c.put item = c.push item ∨ c.streamOpen = false ∧ c.put item = c := by
  cases stream : c.streamOpen with
  | true => exact .inl ⟨rfl, if_pos stream⟩
  | false => exact .inr ⟨rfl, by simp [Channel.put, stream]⟩

theorem put_ends (c : Channel) (item : Except QueryError Envelope) :
    (c.put item).sinkOpen = c.sinkOpen ∧ (c.put item).streamOpen = c.streamOpen ∧
      (c.put item).spent = c.spent ∧ (c.put item).signalled = c.signalled := by
  obtain ⟨-, same⟩ | ⟨-, same⟩ := put_cases c item
  all_goals
    rw [same]
    exact ⟨rfl, rfl, rfl, rfl⟩

theorem queue_put_of_gone {c : Channel} (gone : c.streamOpen = false)
    (item : Except QueryError Envelope) : (c.put item).queue = c.queue := by
  obtain ⟨opened, -⟩ | ⟨-, same⟩ := put_cases c item
  · exact absurd (opened.symm.trans gone) (by decide)
  · rw [same]

theorem Held.turn {t t' : Talk} (h : Held t) (turn : Turn t t') : Held t' := by
  have open_of_free : t.sinkFree = true → t.channel.sinkOpen = true :=
    fun free => (Bool.and_eq_true_iff.1 free).1
  have calling : ∀ {s : Sending}, t.call = some s → t.channel.sinkOpen = true :=
    fun calls => h.sink (by rw [calls]; exact Option.some_ne_none _)
  cases turn with
  | stay | noted _ _ | drained _ _ _ => exact ⟨h.sink, h.leaving, h.spent⟩
  | took item rest free front =>
    have opened := (Bool.and_eq_true_iff.1 free).1
    exact ⟨h.sink, fun gone => absurd (opened.symm.trans gone) (by decide), h.spent⟩
  | begun item free => exact ⟨fun _ => open_of_free free, h.leaving, h.spent⟩
  | looked _ calls | granted _ calls | waits _ calls =>
    exact ⟨fun _ => calling calls, h.leaving, h.spent⟩
  | put item calls =>
    obtain ⟨-, stream, spent, -⟩ := put_ends t.channel item
    rw [finish_eq]
    cases item
    all_goals
      refine ⟨fun calls => absurd rfl calls, fun gone => ?_,
        fun leaving => spent.trans (h.spent leaving)⟩
      have gone : t.channel.streamOpen = false := stream.symm.trans gone
      obtain ⟨leaving, empty⟩ := h.leaving gone
      exact ⟨leaving, (queue_put_of_gone gone _).trans empty⟩
  | unheard e calls => exact ⟨fun calls => absurd rfl calls, h.leaving, h.spent⟩
  | returned item o quiet =>
    rw [finish_eq]
    cases item
    all_goals exact ⟨fun calls => absurd rfl calls, h.leaving, h.spent⟩
  | left free =>
    have none : t.call = none := Option.isNone_iff_eq_none.1 (Bool.and_eq_true_iff.1 free).2
    exact ⟨fun calls => absurd none calls, h.leaving, h.spent⟩
  | cancelled free => exact ⟨h.sink, h.leaving, fun _ => rfl⟩
  | dropped free =>
    have opened := (Bool.and_eq_true_iff.1 free).1
    exact ⟨h.sink, fun gone => absurd (opened.symm.trans gone) (by decide), fun _ => rfl⟩
  | closed leaving => exact ⟨h.sink, fun _ => ⟨leaving, rfl⟩, h.spent⟩

/-! ### The signal -/

/-- The first of the calls that stop the producer used up the signal, and only it did. It has
reached a producer that still has its sink. -/
structure Signals (c : Channel) (log : List Logged) : Prop where
  spent : c.spent = log.any Logged.stops
  told : c.sinkOpen = true → c.signalled = c.spent
  raised : log.filter Logged.raised = (log.filter Logged.stops).take 1
  claims : ∀ entry ∈ log, entry.claims = true → entry.raised = true

variable {c c' : Channel} {log : List Logged} {entry : Logged}

theorem signals_start (buffer : Nat) : Signals (.ofBuffer buffer) [] where
  spent := rfl
  told _ := rfl
  raised := rfl
  claims entry mem := by cases mem

theorem filter_append_singleton_of_neg {α : Type} (p : α → Bool) (l : List α) {a : α}
    (h : p a = false) : (l ++ [a]).filter p = l.filter p := by
  simp [List.filter_append, h]

/-- What keeps the signal keeps the account of it. -/
theorem Signals.keep (h : Signals c log) (spent : c'.spent = c.spent)
    (told : c'.sinkOpen = true → c.sinkOpen = true ∧ c'.signalled = c.signalled) :
    Signals c' log where
  spent := spent.trans h.spent
  told sink := by
    obtain ⟨sink, same⟩ := told sink
    rw [same, spent, h.told sink]
  raised := h.raised
  claims := h.claims

theorem Signals.note (h : Signals c log) (raised : entry.raised = false)
    (stops : entry.stops = false) (claims : entry.claims = false) :
    Signals c (log ++ [entry]) where
  spent := by
    rw [h.spent, List.any_append, List.any_cons, stops, List.any_nil, Bool.or_self, Bool.or_false]
  told := h.told
  raised := by
    rw [filter_append_singleton_of_neg _ _ raised, filter_append_singleton_of_neg _ _ stops,
      h.raised]
  claims e mem claim := by
    obtain mem | mem := List.mem_append.1 mem
    · exact h.claims e mem claim
    · rw [List.mem_singleton.1 mem, claims] at claim
      cases claim

/-- A call that stops the producer uses up the signal unless that was done before. -/
theorem Signals.stop (h : Signals c log) (raised : entry.raised = c.cancel.1)
    (stops : entry.stops = true) (claims : entry.claims = true → entry.raised = true) :
    Signals c.cancel.2 (log ++ [entry]) where
  spent := by
    rw [List.any_append, List.any_cons, stops, Bool.true_or, Bool.or_true]
    rfl
  told sink := by
    have told := h.told sink
    show (c.signalled || !c.spent && c.sinkOpen) = true
    rw [told, show c.sinkOpen = true from sink]
    cases c.spent <;> rfl
  raised := by
    have raised : entry.raised = !c.spent := raised
    rw [List.filter_append, List.filter_append, h.raised, List.filter_cons, List.filter_cons,
      stops, raised, h.spent, if_pos rfl]
    cases before : log.any Logged.stops with
    | true =>
      have some : log.filter Logged.stops ≠ [] := by
        obtain ⟨e, mem, stopped⟩ := List.any_eq_true.1 before
        exact List.ne_nil_of_mem (List.mem_filter.2 ⟨mem, stopped⟩)
      have : 1 ≤ (log.filter Logged.stops).length := List.length_pos_iff.2 some
      rw [List.take_append_of_le_length this]
      exact List.append_nil _
    | false =>
      have none : log.filter Logged.stops = [] := by
        rw [List.filter_eq_nil_iff]
        intro e mem stopped
        exact Bool.false_ne_true (before.symm.trans (List.any_eq_true.2 ⟨e, mem, stopped⟩))
      rw [none]
      rfl
  claims e mem claim := by
    obtain mem | mem := List.mem_append.1 mem
    · exact h.claims e mem claim
    · obtain rfl := List.mem_singleton.1 mem
      exact claims claim

theorem Signals.dropSink (h : Signals c log) : Signals c.dropSink log :=
  h.keep rfl fun sink => by cases sink

theorem Signals.turn {t t' : Talk} (h : Signals t.channel t.log) (turn : Turn t t') :
    Signals t'.channel t'.log := by
  cases turn with
  | stay | begun _ _ | looked _ _ _ | granted _ _ _ | waits _ _ => exact h
  | put item calls =>
    obtain ⟨sink, -, spent, signalled⟩ := put_ends t.channel item
    have put : Signals (t.channel.put item) t.log :=
      h.keep spent fun there => ⟨sink.symm.trans there, signalled⟩
    cases item with
    | ok e => exact put.note rfl rfl rfl
    | error e => exact put.dropSink.note rfl rfl rfl
  | unheard e calls gone => exact h.dropSink.note rfl rfl rfl
  | returned item o quiet =>
    cases item with
    | ok e => exact h.note quiet.raised quiet.stops quiet.claims
    | error e => exact h.dropSink.note quiet.raised quiet.stops quiet.claims
  | noted entry quiet => exact h.note quiet.raised quiet.stops quiet.claims
  | left free => exact h.dropSink.note rfl rfl rfl
  | took item rest free front =>
    have taken : Signals { t.channel with queue := rest } t.log :=
      h.keep rfl fun sink => ⟨sink, rfl⟩
    exact taken.note rfl rfl rfl
  | drained free front sink => exact h.note rfl rfl rfl
  | cancelled free => exact h.stop rfl rfl id
  | dropped free => exact h.stop rfl rfl nofun
  | closed leaving => exact h.keep rfl fun sink => ⟨sink, rfl⟩

/-! ### What is handed over and heard -/

/-- What was handed over is results and at most an error behind them. The consumer has heard a
first part of it; the rest is in the channel, unless it was dropped. -/
structure Account (c : Channel) (log : List Logged) : Prop where
  order : heard log <+: handed log
  queued : c.streamOpen = true → handed log = heard log ++ c.queue
  shape : ∃ (items : List Envelope) (fault : Option QueryError),
    handed log = items.map .ok ++ fault.toList.map .error ∧
      (fault.isSome → c.sinkOpen = false)
  drained : (∃ entry ∈ log, entry.ends = true) → c.sinkOpen = false ∧ heard log = handed log

theorem account_start (buffer : Nat) : Account (.ofBuffer buffer) [] where
  order := List.prefix_rfl
  queued _ := rfl
  shape := ⟨[], none, rfl, nofun⟩
  drained := by
    rintro ⟨entry, mem, _⟩
    cases mem

theorem handed_append (log : List Logged) (entry : Logged) :
    handed (log ++ [entry]) = handed log ++ entry.handed.toList := by
  rw [handed, List.filterMap_append, handed]
  cases h : entry.handed <;> simp [h]

theorem heard_append (log : List Logged) (entry : Logged) :
    heard (log ++ [entry]) = heard log ++ entry.heard.toList := by
  rw [heard, List.filterMap_append, heard]
  cases h : entry.heard <;> simp [h]

/-- What leaves the channel to its ends, or drops one of them, keeps the account. -/
theorem Account.keep (h : Account c log)
    (queue : c'.streamOpen = true → c.streamOpen = true ∧ c'.queue = c.queue)
    (sink : c.sinkOpen = false → c'.sinkOpen = false) : Account c' log where
  order := h.order
  queued stream := by
    obtain ⟨stream, queue⟩ := queue stream
    rw [h.queued stream, queue]
  shape := by
    obtain ⟨items, fault, shape, last⟩ := h.shape
    exact ⟨items, fault, shape, fun failed => sink (last failed)⟩
  drained ended := by
    obtain ⟨closed, all⟩ := h.drained ended
    exact ⟨sink closed, all⟩

/-- A call that tells neither end anything of the results keeps the account. -/
theorem Account.note (h : Account c log) (handed : entry.handed = none)
    (heard : entry.heard = none)
    (ends : entry.ends = true → c.sinkOpen = false ∧ Talk.heard log = Talk.handed log) :
    Account c (log ++ [entry]) := by
  have same : Talk.handed (log ++ [entry]) = Talk.handed log := by
    rw [handed_append, handed, Option.toList_none, List.append_nil]
  have same' : Talk.heard (log ++ [entry]) = Talk.heard log := by
    rw [heard_append, heard, Option.toList_none, List.append_nil]
  constructor
  · rw [same, same']
    exact h.order
  · intro stream
    rw [same, same', h.queued stream]
  · rw [same]
    exact h.shape
  · rintro ⟨e, mem, ended⟩
    rw [same, same']
    obtain mem | mem := List.mem_append.1 mem
    · exact h.drained ⟨e, mem, ended⟩
    · obtain rfl := List.mem_singleton.1 mem
      exact ends ended

theorem Account.hand (h : Account c log) (sink : c.sinkOpen = true)
    {item : Except QueryError Envelope}
    (queue : c'.streamOpen = true → c.streamOpen = true ∧ c'.queue = c.queue ++ [item])
    (handed : entry.handed = some item) (heard : entry.heard = none) (ends : entry.ends = false)
    (last : ∀ e, item = .error e → c'.sinkOpen = false) : Account c' (log ++ [entry]) := by
  have more : Talk.handed (log ++ [entry]) = Talk.handed log ++ [item] := by
    rw [handed_append, handed, Option.toList_some]
  have same : Talk.heard (log ++ [entry]) = Talk.heard log := by
    rw [heard_append, heard, Option.toList_none, List.append_nil]
  -- the sink is still there, so nothing has failed and the end was not heard
  obtain ⟨items, fault, shape, closed⟩ := h.shape
  have none : fault = none := by
    cases fault with
    | none => rfl
    | some e => exact absurd (sink.symm.trans (closed rfl)) (by decide)
  subst none
  rw [Option.toList_none, List.map_nil, List.append_nil] at shape
  constructor
  · rw [more, same]
    exact h.order.trans (List.prefix_append _ _)
  · intro stream
    obtain ⟨stream, queue⟩ := queue stream
    rw [more, same, h.queued stream, List.append_assoc, queue]
  · cases item with
    | ok e =>
      refine ⟨items ++ [e], none, ?_, nofun⟩
      rw [more, shape, List.map_append]
      exact (List.append_nil _).symm
    | error e =>
      refine ⟨items, some e, ?_, fun _ => last e rfl⟩
      rw [more, shape]
      rfl
  · rintro ⟨e, mem, ended⟩
    obtain mem | mem := List.mem_append.1 mem
    · exact absurd (sink.symm.trans (h.drained ⟨e, mem, ended⟩).1) (by decide)
    · rw [List.mem_singleton.1 mem, ends] at ended
      cases ended

theorem Account.take (h : Account c log) {item : Except QueryError Envelope}
    {rest : List (Except QueryError Envelope)} (stream : c.streamOpen = true)
    (front : c.queue = item :: rest) (handed : entry.handed = none)
    (heard : entry.heard = some item) (ends : entry.ends = false) :
    Account { c with queue := rest } (log ++ [entry]) := by
  have all := h.queued stream
  rw [front] at all
  have more : Talk.heard (log ++ [entry]) = Talk.heard log ++ [item] := by
    rw [heard_append, heard, Option.toList_some]
  have same : Talk.handed (log ++ [entry]) = Talk.handed log := by
    rw [handed_append, handed, Option.toList_none, List.append_nil]
  have split : Talk.handed log = Talk.heard log ++ [item] ++ rest := by
    rw [all, List.append_assoc]
    rfl
  constructor
  · rw [more, same, split]
    exact List.prefix_append _ _
  · intro _
    rw [more, same, split]
  · rw [same]
    exact h.shape
  · rintro ⟨e, mem, ended⟩
    obtain mem | mem := List.mem_append.1 mem
    · have := (h.drained ⟨e, mem, ended⟩).2
      rw [all] at this
      simp at this
    · rw [List.mem_singleton.1 mem, ends] at ended
      cases ended

theorem Account.dropSink (h : Account c log) : Account c.dropSink log :=
  h.keep (⟨·, rfl⟩) fun _ => rfl

theorem Account.quiet (h : Account c log) (quiet : entry.Quiet) : Account c (log ++ [entry]) :=
  h.note quiet.handed quiet.heard fun ended => by
    rw [quiet.ends] at ended
    cases ended

theorem Account.turn {t t' : Talk} (held : Held t) (h : Account t.channel t.log)
    (turn : Turn t t') : Account t'.channel t'.log := by
  have calling : ∀ {s : Sending}, t.call = some s → t.channel.sinkOpen = true :=
    fun calls => held.sink (by rw [calls]; exact Option.some_ne_none _)
  cases turn with
  | stay | begun _ _ | looked _ _ _ | granted _ _ _ | waits _ _ => exact h
  | put item calls =>
    have filled : (t.channel.put item).streamOpen = true →
        t.channel.streamOpen = true ∧ (t.channel.put item).queue = t.channel.queue ++ [item] := by
      intro opened
      obtain ⟨stream, same⟩ | ⟨gone, same⟩ := put_cases t.channel item
      · exact ⟨stream, by rw [same]; rfl⟩
      · rw [same] at opened
        exact absurd (opened.symm.trans gone) (by decide)
    cases item with
    | ok e => exact h.hand (calling calls) filled rfl rfl rfl nofun
    | error e => exact h.hand (calling calls) filled rfl rfl rfl fun _ _ => rfl
  | unheard e calls gone =>
    exact h.hand (calling calls) (fun opened => absurd (opened.symm.trans gone) (by decide)) rfl
      rfl rfl fun _ _ => rfl
  | returned item o quiet =>
    cases item with
    | ok e => exact h.quiet quiet
    | error e => exact h.dropSink.quiet quiet
  | noted entry quiet => exact h.quiet quiet
  | left free => exact h.dropSink.quiet ⟨rfl, rfl, rfl, rfl, rfl, rfl⟩
  | took item rest free front =>
    have stream := (Bool.and_eq_true_iff.1 free).1
    cases item
    all_goals exact h.take stream front rfl rfl rfl
  | drained free front sink =>
    refine h.note rfl rfl fun _ => ⟨sink, ?_⟩
    rw [h.queued (Bool.and_eq_true_iff.1 free).1, front, List.append_nil]
  | cancelled free | dropped free =>
    have kept : Account t.channel.cancel.2 t.log := h.keep (⟨·, rfl⟩) id
    exact kept.note rfl rfl nofun
  | closed leaving => exact h.keep nofun id

/-- What holds in every run. -/
structure Sound (t : Talk) : Prop where
  held : Held t
  signals : Signals t.channel t.log
  account : Account t.channel t.log

theorem Sound.turn {t t' : Talk} (h : Sound t) (turn : Turn t t') : Sound t' :=
  ⟨h.held.turn turn, h.signals.turn turn, h.account.turn h.held turn⟩

theorem Sound.run {t : Talk} (h : Sound t) (moves : List Move) : Sound (t.run moves) := by
  induction moves generalizing t with
  | nil => exact h
  | cons m moves ih => exact ih (h.turn (t.turn_step m))

theorem sound_start (buffer : Nat) : Sound (start buffer) :=
  ⟨held_start buffer, signals_start buffer, account_start buffer⟩

/-! ### After the signal -/

theorem results_append (log : List Logged) (entry : Logged) :
    results (log ++ [entry]) = results log ++ (entry.handed.bind Except.toOption).toList := by
  rw [results, handed_append, List.filterMap_append, results]
  rcases entry.handed with _ | (e | e) <;> rfl

theorem results_quiet (quiet : entry.Quiet) : results (log ++ [entry]) = results log := by
  rw [results_append, quiet.handed]
  exact List.append_nil _

/-- The results grow by at most one that was to come. -/
structure Within (t t' : Talk) (bound bound' : Option Envelope) : Prop where
  grow : results t.log <+: results t'.log
  stay : results t'.log ++ bound'.toList <+: results t.log ++ bound.toList

theorem Within.refl (t : Talk) (bound : Option Envelope) : Within t t bound bound :=
  ⟨List.prefix_rfl, List.prefix_rfl⟩

theorem Within.trans {t t' t'' : Talk} {bound bound' bound'' : Option Envelope}
    (h : Within t t' bound bound') (h' : Within t' t'' bound' bound'') :
    Within t t'' bound bound'' :=
  ⟨h.grow.trans h'.grow, h'.stay.trans h.stay⟩

theorem Within.of_same {t t' : Talk} {bound : Option Envelope}
    (same : results t'.log = results t.log) : Within t t' bound none :=
  ⟨same ▸ List.prefix_rfl, by
    rw [same, Option.toList_none, List.append_nil]
    exact List.prefix_append _ _⟩

theorem Within.of_eq {t t' : Talk} {bound bound' : Option Envelope}
    (same : results t'.log = results t.log) (kept : bound' = bound) : Within t t' bound bound' :=
  kept ▸ ⟨same ▸ List.prefix_rfl, same ▸ List.prefix_rfl⟩

theorem within_put (t : Talk) (item : Except QueryError Envelope) :
    Within t ({ t with channel := t.channel.put item }.finish item .delivered) item.toOption
      none := by
  have more : results ({ t with channel := t.channel.put item }.finish item .delivered).log =
      results t.log ++ item.toOption.toList := by
    rw [finish_eq]
    cases item
    all_goals exact results_append _ _
  exact ⟨more ▸ List.prefix_append _ _, by simp [more]⟩

theorem results_finish_of_quiet (t : Talk) {item : Except QueryError Envelope} {o : Channel.Outcome}
    (quiet : (o.logged item).Quiet) : results (t.finish item o).log = results t.log := by
  rw [finish_eq]
  cases item
  all_goals exact results_quiet quiet

theorem results_unheard (t : Talk) (e : QueryError) :
    results (t.finish (.error e) .refused).log = results t.log := by
  rw [finish_eq]
  exact (results_append _ _).trans (List.append_nil _)

/-- Once the signal is used up, what is in flight may still be sent and nothing else. -/
theorem Sound.within_of_spent {t t' : Talk} (h : Sound t) (spent : t.channel.spent = true)
    (turn : Turn t t') : Within t t' t.inFlight t'.inFlight := by
  have same (kept : results t'.log = results t.log) (calls : t'.call = t.call) :
      Within t t' t.inFlight t'.inFlight :=
    .of_eq kept (by rw [inFlight, inFlight, calls])
  cases turn with
  | stay => exact .refl t _
  | begun item free | waits item calls =>
    cases item
    all_goals exact .of_same rfl
  | looked e calls quiet =>
    -- who looks still has its sink, so that the signal has reached it
    have sink := h.held.sink (by rw [calls]; exact Option.some_ne_none _)
    have told := (h.signals.told sink).trans spent
    rw [Channel.isCancelled, told] at quiet
    cases quiet
  | granted item calls stream =>
    rw [inFlight, calls]
    cases item
    all_goals exact ⟨List.prefix_rfl, List.prefix_rfl⟩
  | put item calls =>
    have put := within_put t item
    rw [inFlight, calls]
    cases item
    all_goals exact put
  | unheard e calls gone => exact .of_same (t.results_unheard e)
  | returned item o quiet =>
    have same := t.results_finish_of_quiet quiet
    rw [finish_eq] at same ⊢
    cases item
    all_goals exact .of_same same
  | noted entry quiet => exact same (results_quiet quiet) rfl
  | left free => exact same (results_quiet ⟨rfl, rfl, rfl, rfl, rfl, rfl⟩) rfl
  | took _ _ _ _ | drained _ _ _ | cancelled _ | dropped _ =>
    exact same ((results_append _ _).trans (List.append_nil _)) rfl
  | closed leaving => exact same rfl rfl

/-- Once the stream is gone, what has got room may still be sent and nothing else. It is lost, as
nothing is heard any more. -/
theorem within_of_gone {t t' : Talk} (gone : t.channel.streamOpen = false)
    (turn : Turn t t') :
    t'.channel.streamOpen = false ∧ heard t'.log = heard t.log ∧
      Within t t' t.granted t'.granted := by
  have same (kept : results t'.log = results t.log) (calls : t'.call = t.call) :
      Within t t' t.granted t'.granted :=
    .of_eq kept (by rw [granted, granted, calls])
  have quietly : ∀ {entry : Logged}, entry.Quiet → heard (t.log ++ [entry]) = heard t.log := by
    intro entry quiet
    rw [heard_append, quiet.heard]
    exact List.append_nil _
  have barred : ¬t.streamFree = true := by
    rw [streamFree, gone]
    exact Bool.false_ne_true
  cases turn with
  | stay => exact ⟨gone, rfl, .refl t _⟩
  | begun item free | waits item calls =>
    cases item
    all_goals exact ⟨gone, rfl, .of_same rfl⟩
  | looked e calls quiet => exact ⟨gone, rfl, .of_same rfl⟩
  | granted item calls stream => exact absurd (stream.symm.trans gone) (by decide)
  | put item calls =>
    have put := within_put t item
    obtain ⟨-, stream, -, -⟩ := put_ends t.channel item
    rw [granted, calls]
    rw [finish_eq] at put ⊢
    cases item
    all_goals exact ⟨stream.trans gone, (heard_append _ _).trans (List.append_nil _), put⟩
  | unheard e calls gone' =>
    exact ⟨gone, (heard_append _ _).trans (List.append_nil _), .of_same (t.results_unheard e)⟩
  | returned item o quiet =>
    have same := t.results_finish_of_quiet quiet
    rw [finish_eq] at same ⊢
    cases item
    all_goals exact ⟨gone, quietly quiet, .of_same same⟩
  | noted entry quiet => exact ⟨gone, quietly quiet, same (results_quiet quiet) rfl⟩
  | left free =>
    have quiet : (⟨.dropSink, .dropped, false⟩ : Logged).Quiet := ⟨rfl, rfl, rfl, rfl, rfl, rfl⟩
    exact ⟨gone, quietly quiet, same (results_quiet quiet) rfl⟩
  | took _ _ free _ | drained free _ _ | cancelled free | dropped free => exact absurd free barred
  | closed leaving => exact ⟨rfl, rfl, same rfl rfl⟩

theorem spent_turn {t t' : Talk} (spent : t.channel.spent = true)
    (turn : Turn t t') : t'.channel.spent = true := by
  cases turn with
  | put item calls =>
    rw [finish_eq]
    cases item
    all_goals exact (put_ends t.channel _).2.2.1.trans spent
  | unheard _ _ _ => exact spent
  | returned item o quiet =>
    rw [finish_eq]
    cases item
    all_goals exact spent
  | cancelled _ | dropped _ => rfl
  | _ => exact spent

theorem Sound.run_of_spent {t : Talk} (h : Sound t) (spent : t.channel.spent = true)
    (later : List Move) :
    (t.run later).channel.spent = true ∧
      Within t (t.run later) t.inFlight (t.run later).inFlight := by
  induction later generalizing t with
  | nil => exact ⟨spent, .refl t _⟩
  | cons m later ih =>
    have turn := t.turn_step m
    obtain ⟨stays, within⟩ := ih (h.turn turn) (spent_turn spent turn)
    exact ⟨stays, (h.within_of_spent spent turn).trans within⟩

theorem run_of_gone {t : Talk} (gone : t.channel.streamOpen = false)
    (later : List Move) :
    (t.run later).channel.streamOpen = false ∧ heard (t.run later).log = heard t.log ∧
      Within t (t.run later) t.granted (t.run later).granted := by
  induction later generalizing t with
  | nil => exact ⟨gone, rfl, .refl t _⟩
  | cons m later ih =>
    have turn := t.turn_step m
    obtain ⟨gone', same, within⟩ := within_of_gone gone turn
    obtain ⟨stays, same', within'⟩ := ih gone'
    exact ⟨stays, same'.trans same, within.trans within'⟩

theorem goOn_of_isCancelled {t : Talk} {e : Envelope} (told : t.channel.isCancelled = true)
    (calls : t.call = some (.looking e)) : t.step .goOn = t.finish (.ok e) .refused := by
  show t.goOn = _
  rw [goOn, calls]
  exact if_pos told

theorem goOn_of_gone {t : Talk} {e : Envelope} (gone : t.channel.streamOpen = false)
    (calls : t.call = some (.looking e) ∨ t.call = some (.asking (.ok e))) :
    t.step .goOn = t.finish (.ok e) .refused := by
  obtain calls | calls := calls
  · refine goOn_of_isCancelled ?_ calls
    rw [Channel.isCancelled, gone]
    exact Bool.or_true _
  · have closed : t.channel.ask = .closed := by simp [Channel.ask, gone]
    show t.goOn = _
    rw [goOn, calls]
    dsimp only
    rw [closed]

/-! ### Calls that nothing comes between -/

theorem step_send_of_free {t : Talk} (free : t.sinkFree = true) (e : Envelope) :
    t.step (.send e) = { t with call := some (.looking e) } := if_pos free

theorem goOn_asking {t : Talk} {item : Except QueryError Envelope}
    (calls : t.call = some (.asking item)) : t.goOn = match t.channel.ask with
      | .free => { t with call := some (.putting item) }
      | .full => { t with call := some (.ofItem item) }
      | .closed => t.finish item .refused := by
  cases asked : t.channel.ask
  all_goals simp only [goOn, calls, asked]

/-- `Channel.send` is a send that nothing comes between, given up if it has to wait. -/
theorem exists_run_send {t : Talk} (free : t.sinkFree = true) (e : Envelope) :
    ∃ moves, t.run (.send e :: moves) = { t with channel := (t.channel.send e).2 }.note
      ⟨.send e, (t.channel.send e).1, false⟩ := by
  obtain ⟨channel, call, leaving, log⟩ := t
  obtain rfl : call = none := Option.isNone_iff_eq_none.1 (Bool.and_eq_true_iff.1 free).2
  have begun : ∀ moves, run ⟨channel, none, leaving, log⟩ (.send e :: moves) =
      run ⟨channel, some (.looking e), leaving, log⟩ moves := by
    intro moves
    rw [run, List.foldl_cons, step_send_of_free free]
    rfl
  rw [Channel.send]
  by_cases told : channel.isCancelled = true
  · refine ⟨[.goOn], ?_⟩
    rw [begun, if_pos told]
    exact @goOn_of_isCancelled ⟨channel, some (.looking e), leaving, log⟩ e told rfl
  have looked : ∀ moves, run ⟨channel, some (.looking e), leaving, log⟩ (.goOn :: moves) =
      run ⟨channel, some (.asking (.ok e)), leaving, log⟩ moves :=
    fun moves => congrArg (run · moves) (if_neg told)
  rw [if_neg told]
  have asked := @goOn_asking ⟨channel, some (.asking (.ok e)), leaving, log⟩ (.ok e) rfl
  dsimp only at asked
  cases room : channel.ask with
  | free =>
    rw [room] at asked
    refine ⟨[.goOn, .goOn, .goOn], ?_⟩
    rw [begun, looked]
    exact congrArg goOn asked
  | full =>
    rw [room] at asked
    refine ⟨[.goOn, .goOn, .giveUp], ?_⟩
    rw [begun, looked]
    exact congrArg giveUp asked
  | closed =>
    rw [room] at asked
    refine ⟨[.goOn, .goOn], ?_⟩
    rw [begun, looked]
    exact asked

/-- `Channel.fail` is a fail that nothing comes between, if it does not have to wait. -/
theorem exists_run_fail {t : Talk} (free : t.sinkFree = true) (e : QueryError)
    (room : t.channel.ask ≠ .full) :
    ∃ moves, t.run (.fail e :: moves) = { t with channel := (t.channel.fail e).2 }.note
      ⟨.fail e, (t.channel.fail e).1, false⟩ := by
  obtain ⟨channel, call, leaving, log⟩ := t
  obtain rfl : call = none := Option.isNone_iff_eq_none.1 (Bool.and_eq_true_iff.1 free).2
  have begun : ∀ moves, run ⟨channel, none, leaving, log⟩ (.fail e :: moves) =
      run ⟨channel, some (.asking (.error e)), leaving, log⟩ moves :=
    fun moves => congrArg (run · moves) (if_pos free)
  have asked := @goOn_asking ⟨channel, some (.asking (.error e)), leaving, log⟩ (.error e) rfl
  dsimp only at asked room
  rw [Channel.fail]
  cases found : channel.ask with
  | free =>
    rw [found] at asked
    refine ⟨[.goOn, .goOn], ?_⟩
    rw [begun]
    exact congrArg goOn asked
  | full => exact absurd found room
  | closed =>
    rw [found] at asked
    refine ⟨[.goOn], ?_⟩
    rw [begun]
    exact asked

end Talk

end Relay
