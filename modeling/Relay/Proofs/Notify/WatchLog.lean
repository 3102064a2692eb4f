import Relay.Notify.Watchers

/-!
# Logs of watch connections

What has happened to the watch connections, entry by entry. `Watchers.Entry.Follows` says which
entry may follow a log, by what the log has of it: a notice goes to the current subscription of a
client, a send goes where it was looked up, and a reader takes what came in, in that order. A log
is lawful if each of its entries follows those before it.
-/

namespace Relay

namespace Watchers

inductive Entry where
  | opened (id : SubscriptionId) (client : String)
  | dropped (id : SubscriptionId)
  /-- A notice was put on a connection. -/
  | pushed (id : SubscriptionId) (notice : Notice)
  /-- A send has looked up its connection. -/
  | found (send : SendId) (id : SubscriptionId) (notice : Notice)
  | tried (send : SendId) (id : SubscriptionId) (notice : Notice)
  /-- A send has succeeded. -/
  | accepted (send : SendId) (id : SubscriptionId) (notice : Notice)
  | received (id : SubscriptionId) (notice : Notice)
  deriving DecidableEq

/-- A notice that came to a connection, and the send that brought it. -/
abbrev Offer := Option SendId × Notice

namespace Entry

/-- The subscription that an entry is about. -/
def subscription : Entry → SubscriptionId
  | opened id _ | dropped id | pushed id _ | received id _ => id
  | found _ id _ | tried _ id _ | accepted _ id _ => id

/-- The send that an entry is about. -/
def send? : Entry → Option SendId
  | found send _ _ | tried send _ _ | accepted send _ _ => some send
  | opened _ _ | dropped _ | pushed _ _ | received _ _ => none

/-- The entry opens a connection or drops it. -/
def enrols : Entry → Bool
  | opened _ _ | dropped _ => true
  | pushed _ _ | found _ _ _ | tried _ _ _ | accepted _ _ _ | received _ _ => false

def openedFor? (client : String) : Entry → Option SubscriptionId
  | opened id c => if c = client then some id else none
  | dropped _ | pushed _ _ | found _ _ _ | tried _ _ _ | accepted _ _ _ | received _ _ => none

def taken? (id : SubscriptionId) : Entry → Option Offer
  | pushed i n => if i = id then some (none, n) else none
  | accepted send i n => if i = id then some (some send, n) else none
  | opened _ _ | dropped _ | found _ _ _ | tried _ _ _ | received _ _ => none

def read? (id : SubscriptionId) : Entry → Option Notice
  | received i n => if i = id then some n else none
  | opened _ _ | dropped _ | pushed _ _ | found _ _ _ | tried _ _ _ | accepted _ _ _ => none

end Entry

abbrev Log := List Entry

variable {log : Log} {client client' : String} {id id' : SubscriptionId} {send : SendId}
  {n n' : Notice} {e : Entry} {es : List Entry}

namespace Log

/-- The subscription that was opened last for a client. -/
def latest? (log : Log) (client : String) : Option SubscriptionId :=
  (log.filterMap (Entry.openedFor? client)).getLast?

/-- The subscription was opened last for its client, and it was not dropped. -/
def IsCurrent (log : Log) (client : String) (id : SubscriptionId) : Prop :=
  log.latest? client = some id ∧ .dropped id ∉ log

/-- Another subscription was opened later for the same client. -/
def IsReplaced (log : Log) (id : SubscriptionId) : Prop :=
  ∃ client, .opened id client ∈ log ∧ log.latest? client ≠ some id

/-- What a connection has taken, in that order. -/
def taken (log : Log) (id : SubscriptionId) : List Offer := log.filterMap (Entry.taken? id)

/-- What a reader was given, in that order. -/
def read (log : Log) (id : SubscriptionId) : List Notice := log.filterMap (Entry.read? id)

end Log

/-- What an entry needs to follow a log. -/
def Entry.Follows (log : Log) : Entry → Prop
  | opened id _ => ∀ client, opened id client ∉ log
  | dropped id => (∃ client, opened id client ∈ log) ∧ dropped id ∉ log
  | pushed id _ => ∃ client, log.IsCurrent client id
  | found send id n => log.IsCurrent n.client id ∧ ∀ id n, found send id n ∉ log
  | tried send id n => found send id n ∈ log ∧ ∀ id n, tried send id n ∉ log
  | accepted send id n => tried send id n ∈ log ∧ ∀ id n, accepted send id n ∉ log
  | received id n => dropped id ∉ log ∧ log.read id ++ [n] <+: (log.taken id).map Prod.snd

/-- Each entry follows those before it. -/
inductive Lawful : Log → Prop
  | nil : Lawful []
  | snoc {log : Log} {e : Entry} (h : Lawful log) (follows : e.Follows log) : Lawful (log ++ [e])

namespace Log

/-! ### Entries that are added -/

theorem taken_append (log es : Log) (id : SubscriptionId) :
    (log ++ es).taken id = log.taken id ++ es.taken id := List.filterMap_append

theorem read_append (log es : Log) (id : SubscriptionId) :
    (log ++ es).read id = log.read id ++ es.read id := List.filterMap_append

@[simp] theorem taken_cons (e : Entry) (es : Log) (id : SubscriptionId) :
    Log.taken (e :: es) id = (e.taken? id).toList ++ es.taken id := by
  rw [taken, List.filterMap_cons]
  cases e.taken? id <;> rfl

@[simp] theorem read_cons (e : Entry) (es : Log) (id : SubscriptionId) :
    Log.read (e :: es) id = (e.read? id).toList ++ es.read id := by
  rw [read, List.filterMap_cons]
  cases e.read? id <;> rfl

@[simp] theorem taken_nil (id : SubscriptionId) : Log.taken [] id = [] := rfl

@[simp] theorem read_nil (id : SubscriptionId) : Log.read [] id = [] := rfl

theorem filterMap_eq_nil {β : Type} {f : Entry → Option β}
    (own : ∀ e b, f e = some b → e.subscription = id) (h : ∀ e ∈ es, e.subscription ≠ id) :
    es.filterMap f = [] :=
  List.filterMap_eq_nil_iff.2 fun e mem =>
    Option.eq_none_iff_forall_ne_some.2 fun b here => h e mem (own e b here)

theorem subscription_of_taken? {o : Offer} (here : e.taken? id = some o) :
    e.subscription = id := by
  cases e <;> simp [Entry.taken?] at here <;> exact here.1

theorem taken_eq_nil (h : ∀ e ∈ es, e.subscription ≠ id) : taken es id = [] :=
  filterMap_eq_nil (fun _ _ => subscription_of_taken?) h

theorem read_eq_nil (h : ∀ e ∈ es, e.subscription ≠ id) : read es id = [] := by
  refine filterMap_eq_nil (fun e n here => ?_) h
  cases e <;> simp [Entry.read?] at here
  exact here.1

theorem taken_snoc_of_none (h : e.taken? id = none) : (log ++ [e]).taken id = log.taken id := by
  rw [taken_append, taken_cons, h]
  exact List.append_nil _

theorem read_snoc_of_none (h : e.read? id = none) : (log ++ [e]).read id = log.read id := by
  rw [read_append, read_cons, h]
  exact List.append_nil _

/-! ### The newest subscription of a client -/

theorem mem_opened_iff :
    id ∈ log.filterMap (Entry.openedFor? client) ↔ .opened id client ∈ log := by
  rw [List.mem_filterMap]
  constructor
  · rintro ⟨e, mem, here⟩
    cases e with
    | opened id' client' =>
      simp only [Entry.openedFor?, Option.ite_none_right_eq_some, Option.some.injEq] at here
      obtain ⟨rfl, rfl⟩ := here
      exact mem
    | _ => cases here
  · intro mem
    exact ⟨_, mem, if_pos rfl⟩

theorem opened_of_latest? (h : log.latest? client = some id) : .opened id client ∈ log :=
  mem_opened_iff.1 (List.mem_of_getLast? h)

theorem IsCurrent.opened (h : log.IsCurrent client id) : .opened id client ∈ log :=
  opened_of_latest? h.1

theorem latest?_append_of_quiet (h : ∀ e ∈ es, e.enrols = false) (client : String) :
    (log ++ es).latest? client = log.latest? client := by
  have none_ : es.filterMap (Entry.openedFor? client) = [] := by
    refine List.filterMap_eq_nil_iff.2 fun e mem => ?_
    have quiet := h e mem
    cases e <;> first | rfl | cases quiet
  rw [latest?, List.filterMap_append, none_, List.append_nil, latest?]

theorem latest?_snoc_opened (log : Log) (id : SubscriptionId) (client client' : String) :
    (log ++ [Entry.opened id client]).latest? client' =
      if client = client' then some id else log.latest? client' := by
  rw [latest?, List.filterMap_append]
  by_cases same : client = client'
  · simp [Entry.openedFor?, same]
  · simp [Entry.openedFor?, same, latest?]

theorem latest?_snoc_dropped (log : Log) (id : SubscriptionId) (client : String) :
    (log ++ [Entry.dropped id]).latest? client = log.latest? client := by
  rw [latest?, List.filterMap_append]
  simp [Entry.openedFor?, latest?]

theorem not_mem_append_of_quiet (h : ∀ e ∈ es, e.enrols = false) (enrols : e.enrols = true) :
    e ∈ log ++ es ↔ e ∈ log := by
  rw [List.mem_append, or_iff_left]
  intro mem
  rw [h e mem] at enrols
  cases enrols

theorem isCurrent_append_of_quiet (h : ∀ e ∈ es, e.enrols = false) :
    (log ++ es).IsCurrent client id ↔ log.IsCurrent client id := by
  rw [IsCurrent, IsCurrent, latest?_append_of_quiet h, not_mem_append_of_quiet h rfl]

end Log

/-! ### Lawful logs -/

namespace Lawful

theorem exists_follows (h : Lawful log) (mem : e ∈ log) :
    ∃ before, e.Follows before ∧ before ++ [e] <+: log := by
  induction h with
  | nil => cases mem
  | @snoc log last h follows ih =>
    rcases List.mem_append.1 mem with mem | mem
    · obtain ⟨before, own, part⟩ := ih mem
      exact ⟨before, own, part.trans (List.prefix_append _ _)⟩
    · obtain rfl := List.mem_singleton.1 mem
      exact ⟨log, follows, List.prefix_rfl⟩

theorem follows_of_append (h : Lawful (log ++ e :: es)) : e.Follows log := by
  generalize whole : log ++ e :: es = all at h
  induction h generalizing es with
  | nil => simp at whole
  | @snoc all last h follows ih =>
    rcases List.eq_nil_or_concat es with rfl | ⟨more, last', rfl⟩
    · obtain ⟨rfl, one⟩ := List.append_inj' whole rfl
      cases one
      exact follows
    · rw [List.concat_eq_append, ← List.cons_append, ← List.append_assoc] at whole
      exact ih (List.append_inj' whole rfl).1

theorem found_of_tried (h : Lawful log) (mem : .tried send id n ∈ log) :
    .found send id n ∈ log := by
  obtain ⟨before, ⟨found, -⟩, part⟩ := h.exists_follows mem
  exact part.subset (List.mem_append_left _ found)

theorem tried_of_accepted (h : Lawful log) (mem : .accepted send id n ∈ log) :
    .tried send id n ∈ log := by
  obtain ⟨before, ⟨tried, -⟩, part⟩ := h.exists_follows mem
  exact part.subset (List.mem_append_left _ tried)

theorem opened_of_found (h : Lawful log) (mem : .found send id n ∈ log) :
    .opened id n.client ∈ log := by
  obtain ⟨before, ⟨current, -⟩, part⟩ := h.exists_follows mem
  exact part.subset (List.mem_append_left _ current.opened)

/-! ### Entries that come once -/

/-- At most one entry has a key, if an entry only follows a log that does not have its key. -/
theorem unique {κ : Type} (key : Entry → Option κ) (h : Lawful log)
    (fresh : ∀ {log : Log} {e : Entry} {k : κ}, e.Follows log → key e = some k →
      ∀ e' ∈ log, key e' ≠ some k) {e' : Entry} {k : κ} (mem : e ∈ log) (mem' : e' ∈ log)
    (has : key e = some k) (has' : key e' = some k) : e = e' := by
  induction h with
  | nil => cases mem
  | snoc h follows ih =>
    rcases List.mem_append.1 mem with old | new
    · rcases List.mem_append.1 mem' with old' | new'
      · exact ih old old'
      · obtain rfl := List.mem_singleton.1 new'
        exact absurd has (fresh follows has' e old)
    · obtain rfl := List.mem_singleton.1 new
      rcases List.mem_append.1 mem' with old' | new'
      · exact absurd has' (fresh follows has e' old')
      · exact (List.mem_singleton.1 new').symm

theorem nodup {κ : Type} (key : Entry → Option κ) (h : Lawful log)
    (fresh : ∀ {log : Log} {e : Entry} {k : κ}, e.Follows log → key e = some k →
      ∀ e' ∈ log, key e' ≠ some k) : (log.filterMap key).Nodup := by
  induction h with
  | nil => exact List.nodup_nil
  | @snoc log e h follows ih =>
    rw [List.filterMap_append]
    cases has : key e with
    | none => simpa [List.filterMap_cons, has] using ih
    | some k =>
      rw [List.filterMap_cons_some has, List.filterMap_nil, List.nodup_append]
      refine ⟨ih, List.pairwise_singleton _ _, ?_⟩
      rintro a mem b new rfl
      obtain ⟨e', there, has'⟩ := List.mem_filterMap.1 mem
      rw [List.mem_singleton.1 new] at has'
      exact fresh follows has e' there has'

theorem opened_unique (h : Lawful log) (mem : .opened id client ∈ log)
    (mem' : .opened id client' ∈ log) : client = client' := by
  have same := h.unique (fun | .opened id _ => some id | _ => none)
    (fun {log e k} follows has e' there has' => by
      cases e <;> cases has
      cases e' <;> cases has'
      exact follows _ there) mem mem' rfl rfl
  exact (Entry.opened.inj same).2

/-- No send is taken twice. -/
theorem nodup_taken (h : Lawful log) (id : SubscriptionId) :
    ((log.taken id).filterMap Prod.fst).Nodup := by
  have accepted : ∀ {e : Entry} {send : SendId}, (e.taken? id).bind Prod.fst = some send →
      ∃ n, e = .accepted send id n := by
    intro e send has
    obtain ⟨⟨sender, n⟩, here, rfl⟩ := Option.bind_eq_some_iff.1 has
    cases e <;> simp [Entry.taken?] at here
    obtain ⟨rfl, rfl, rfl⟩ := here
    exact ⟨_, rfl⟩
  rw [Log.taken, List.filterMap_filterMap]
  refine h.nodup _ fun {log e send} follows has e' there has' => ?_
  obtain ⟨n, rfl⟩ := accepted has
  obtain ⟨n', rfl⟩ := accepted has'
  exact follows.2 _ _ there

/-! ### What a log has of a subscription -/

/-- A subscription is opened before anything else becomes of it. -/
theorem opened_of_mem (h : Lawful log) (mem : e ∈ log) :
    ∃ client, .opened e.subscription client ∈ log := by
  induction h generalizing e with
  | nil => cases mem
  | @snoc log last h follows ih =>
    have kept : ∀ {e : Entry} {id : SubscriptionId}, e ∈ log → e.subscription = id →
        ∃ client, .opened id client ∈ log ++ [last] := by
      rintro e id mem rfl
      obtain ⟨client, opened⟩ := ih mem
      exact ⟨client, List.mem_append_left _ opened⟩
    rcases List.mem_append.1 mem with mem | new
    · exact kept mem rfl
    obtain rfl := List.mem_singleton.1 new
    cases e with
    | opened id client => exact ⟨client, mem⟩
    | dropped id =>
      obtain ⟨client, opened⟩ := follows.1
      exact kept opened rfl
    | pushed id n =>
      obtain ⟨client, current⟩ := follows
      exact kept current.opened rfl
    | found send id n => exact kept follows.1.opened rfl
    | tried send id n => exact kept follows.1 rfl
    | accepted send id n => exact kept follows.1 rfl
    | received id n =>
      have some_ : log.taken id ≠ [] := by
        intro none_
        have part := follows.2
        rw [none_, List.map_nil, List.prefix_nil] at part
        simp at part
      obtain ⟨o, there⟩ := List.exists_mem_of_ne_nil _ some_
      obtain ⟨e, mem, takes⟩ := List.mem_filterMap.1 there
      exact kept mem (Log.subscription_of_taken? takes)

theorem other_of_not_opened (h : Lawful log) (new : ∀ client, .opened id client ∉ log) :
    ∀ e ∈ log, e.subscription ≠ id := by
  rintro e mem rfl
  obtain ⟨client, opened⟩ := h.opened_of_mem mem
  exact new client opened

/-- A reader is given what the connection has taken, in that order. -/
theorem read_prefix (h : Lawful log) (id : SubscriptionId) :
    log.read id <+: (log.taken id).map Prod.snd := by
  induction h with
  | nil => exact List.prefix_rfl
  | @snoc log e h follows ih =>
    rw [Log.read_append, Log.taken_append, List.map_append]
    have grown : log.read id <+: (log.taken id).map Prod.snd ++ (Log.taken [e] id).map Prod.snd :=
      ih.trans (List.prefix_append _ _)
    cases e with
    | received id' n =>
      by_cases same : id' = id
      · subst same
        have reads : Log.read [.received id' n] id' = [n] := by simp [Log.read, Entry.read?]
        rw [reads]
        exact follows.2.trans (List.prefix_append _ _)
      · have reads : Log.read [.received id' n] id = [] := by simp [Log.read, Entry.read?, same]
        rw [reads, List.append_nil]
        exact grown
    | _ =>
      simp only [Log.read, List.filterMap_cons, Entry.read?, List.filterMap_nil, List.append_nil]
      exact grown

/-! ### Replaced subscriptions -/

theorem not_current_of_replaced (h : Lawful log) (replaced : log.IsReplaced id)
    (client : String) : ¬ log.IsCurrent client id := by
  obtain ⟨client', opened, other⟩ := replaced
  intro current
  obtain rfl := h.opened_unique opened current.opened
  exact other current.1

theorem replaced_append (h : Lawful (log ++ es)) (replaced : log.IsReplaced id) :
    Log.IsReplaced (log ++ es) id := by
  induction es generalizing log with
  | nil => rwa [List.append_nil]
  | cons e es ih =>
    have follows := h.follows_of_append
    rw [List.append_cons] at h ⊢
    apply ih h
    obtain ⟨client, opened, other⟩ := replaced
    refine ⟨client, List.mem_append_left _ opened, ?_⟩
    cases e with
    | opened id' client' =>
      rw [Log.latest?_snoc_opened]
      split
      · rintro same
        cases same
        exact follows client opened
      · exact other
    | dropped id' =>
      rw [Log.latest?_snoc_dropped]
      exact other
    | _ =>
      rw [Log.latest?_append_of_quiet (by simp [Entry.enrols])]
      exact other

end Lawful

end Watchers

end Relay
