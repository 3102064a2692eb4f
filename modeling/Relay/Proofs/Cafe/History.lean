import Relay.Proofs.Cafe.Storing
import Relay.Proofs.Content.Naming
import Relay.Proofs.Records.Messages

/-!
# Inboxes and their history

However requests interleave, an inbox holds one entry for each message that was put into it, with
the sender and the date of the last time (`Traffic.inbox_history`). The log of a run has a receipt
for each delivery that has put its message into an inbox, in the order in which they did; no step
of any other request writes there (`Task.records_step`).
-/

namespace Relay

open ObjectStore

/-- A message was put into an inbox at an instant, by the request that came at a place. -/
structure Receipt where
  place : Nat
  delivery : Delivery
  date : Instant
  deriving DecidableEq

namespace Receipt

def message (r : Receipt) : Message := r.delivery.message r.date r.delivery.bodyId

def key (r : Receipt) : ContentId × String := (r.delivery.bodyId, r.delivery.recipient)

def row (r : Receipt) : MessageRow := ⟨r.delivery.sender, r.date.storedText⟩

/-- The last time that a message was put into the inbox of a client. -/
def latest (log : List Receipt) (key : ContentId × String) : Option Receipt :=
  (log.filter fun r => r.key = key).getLast?

variable {log : List Receipt} {r : Receipt} {key : ContentId × String}

theorem latest_append (log : List Receipt) (r : Receipt) (key : ContentId × String) :
    latest (log ++ [r]) key = if r.key = key then some r else latest log key := by
  unfold latest
  rw [List.filter_append]
  split
  · next same => simp [same]
  · next other => simp [other]

theorem mem_of_latest (h : latest log key = some r) : r ∈ log ∧ r.key = key := by
  have mem := List.mem_filter.1 (List.mem_of_getLast? h)
  exact ⟨mem.1, of_decide_eq_true mem.2⟩

/-- Messages with different ids do not share an entry. -/
theorem get?_putMessage (records : Records) (r : Receipt) (key : ContentId × String) :
    (records.putMessage r.message).messages.get? (key.1.text, key.2) =
      if r.key = key then some r.row else records.messages.get? (key.1.text, key.2) := by
  rw [Records.putMessage, Table.get?_put]
  by_cases same : r.key = key
  · rw [if_pos same, ← same]
    exact if_pos rfl
  · rw [if_neg same]
    apply if_neg
    intro equal
    obtain ⟨id, client⟩ := Prod.mk.injEq _ _ _ _ ▸ equal
    exact same (Prod.ext (ContentId.text_injective id.symm) client.symm)

end Receipt

/-! ### Steps that write to an inbox -/

namespace Task

variable {t : Task} {now : Instant} {c : Cafe}

def Carries : Task → Prop
  | .deliver d stage => stage.Carries d
  | _ => True

/-- A step of a request puts a message into its inbox, or leaves all inboxes as they are. -/
inductive Records (t : Task) (now : Instant) (c : Cafe) : Prop
  | put (d : Delivery) (id : ContentId) (c' : Cafe) (ready : t = .deliver d (.record id))
      (done : c.putMessage (d.message now id) = .ok c')
      (goes : t.step now c = (.deliver d (.announce id), c'))
  | leave (same : (t.step now c).1.recorded? = t.recorded?)
      (messages : (t.step now c).2.records.messages = c.records.messages)
      (failed : ∀ d id, t = .deliver d (.record id) →
        ∃ e, c.putMessage (d.message now id) = .error e)

theorem records_step (t : Task) (now : Instant) (c : Cafe) : Records t now c := by
  cases moves_step t now c with
  | put d id c' ready done goes => exact .put d id c' ready done goes
  | submit d id ready goes =>
    subst ready
    exact .leave rfl rfl (by simp)
  | store content silent changes goes => exact .leave silent.recorded (by rw [goes]) silent.failed
  | write records silent messages goes =>
    exact .leave silent.recorded (by rw [goes]; exact messages) silent.failed

theorem carries_step (now : Instant) (c : Cafe) (h : t.Carries) : (t.step now c).1.Carries := by
  cases t with
  | deliver d stage => exact Delivery.carries_step now c h
  | keep bytes =>
    simp only [step]
    split <;> trivial
  | keepRaw bytes => trivial
  | release id =>
    simp only [step]
    split
    · split <;> trivial
    · trivial
  | unpin id => trivial
  | putThread client thread ciphertext =>
    simp only [step]
    split <;> trivial
  | writeThread s =>
    simp only [step, change]
    split <;> trivial
  | dropThread client thread =>
    simp only [step]
    split <;> trivial
  | eraseThread client thread =>
    simp only [step, change]
    split <;> trivial
  | register client =>
    simp only [step, change]
    split <;> trivial
  | done => trivial

theorem recorded?_eq_some_iff (h : t.Carries) {d : Delivery} : t.recorded? = some d ↔
    t = .deliver d (.announce d.bodyId) ∨ t = .deliver d (.finished (.ok (.queued d.bodyId))) := by
  constructor
  · intro recorded
    cases t with
    | deliver d' stage =>
      simp only [recorded?, Option.ite_none_right_eq_some, Option.some.injEq] at recorded
      obtain ⟨late, rfl⟩ := recorded
      cases stage with
      | announce id =>
        cases (h : id = d'.bodyId)
        exact .inl rfl
      | finished r =>
        obtain e | outcome := r
        · cases late
        · cases outcome with
          | queued id =>
            cases (h : id = d'.bodyId)
            exact .inr rfl
          | dropped => cases late
      | _ => cases late
    | _ => cases recorded
  · rintro (rfl | rfl) <;> rfl

end Task

/-! ### Logs of runs -/

namespace Traffic

variable {σ : Traffic}

def receipt? (σ : Traffic) : Event → Option Receipt
  | .advance place now =>
    match σ.tasks[place]? with
    | some (.deliver d (.record id)) =>
      match σ.cafe.putMessage (d.message now id) with
      | .ok _ => some ⟨place, d, now⟩
      | .error _ => none
    | _ => none
  | .arrive _ | .disturb _ _ _ => none

def log : Traffic → List Event → List Receipt
  | _, [] => []
  | σ, e :: rest => (σ.receipt? e).toList ++ log (σ.step e) rest

/-- What a log says about the requests and the inboxes that it belongs to. -/
structure Logged (σ : Traffic) (log : List Receipt) : Prop where
  carries : ∀ t ∈ σ.tasks, t.Carries
  places : (log.map Receipt.place).Nodup
  receipts : ∀ place d, (∃ r ∈ log, r.place = place ∧ r.delivery = d) ↔
    σ.tasks[place]?.bind Task.recorded? = some d
  entries : ∀ key : ContentId × String, σ.cafe.records.messages.get? (key.1.text, key.2) =
    (Receipt.latest log key).map Receipt.row
  keys : ∀ key ∈ σ.cafe.records.messages.keys, ∃ r ∈ log, key = (r.key.1.text, r.key.2)

variable {log : List Receipt}

theorem logged_start (config : Config) : Logged (start config) [] where
  carries := fun _ mem => nomatch mem
  places := List.nodup_nil
  receipts := by
    intro place d
    simp [start]
  entries := fun _ => rfl
  keys := fun _ mem => nomatch mem

theorem logged_arrive (h : Logged σ log) (o : Order) : Logged (σ.step (.arrive o)) log where
  carries := by
    intro t mem
    rcases List.mem_append.1 mem with old | new
    · exact h.carries t old
    · rw [List.mem_singleton.1 new]
      cases o <;> trivial
  places := h.places
  receipts := by
    intro place d
    rw [h.receipts place d, step, List.getElem?_append]
    split
    · rfl
    · next out =>
      have fresh : o.task.recorded? = none := by cases o <;> rfl
      rw [List.getElem?_eq_none (Nat.le_of_not_lt out)]
      cases place - σ.tasks.length with
      | zero => simp [fresh]
      | succ n => simp
  entries := h.entries
  keys := h.keys

theorem carries_advance (h : ∀ t ∈ σ.tasks, t.Carries) {place : Nat} {t : Task}
    (next : σ.tasks[place]? = some t) (now : Instant) :
    ∀ t' ∈ (σ.advance place now t).tasks, t'.Carries := by
  intro t' mem
  rcases List.mem_or_eq_of_mem_set mem with old | rfl
  · exact h t' old
  · exact Task.carries_step now σ.cafe (h t (List.mem_of_getElem? next))

section

variable {place : Nat} {now : Instant} {d : Delivery} {id : ContentId} {c : Cafe}

/-- A request that is about to put its message into an inbox has no receipt. -/
theorem unreceipted (h : Logged σ log) (next : σ.tasks[place]? = some (.deliver d (.record id))) :
    ∀ r ∈ log, r.place ≠ place := by
  intro r mem same
  have recorded := (h.receipts place r.delivery).1 ⟨r, mem, same, rfl⟩
  rw [next] at recorded
  cases recorded

theorem receipts_put (h : Logged σ log) (next : σ.tasks[place]? = some (.deliver d (.record id)))
    (goes : (Task.deliver d (.record id)).step now σ.cafe = (.deliver d (.announce id), c))
    (other : Nat) (d' : Delivery) :
    (∃ r ∈ log ++ [⟨place, d, now⟩], r.place = other ∧ r.delivery = d') ↔
      (σ.advance place now (.deliver d (.record id))).tasks[other]?.bind Task.recorded? =
        some d' := by
  rw [tasks_advance next, goes]
  by_cases here : place = other
  · subst here
    simp only [if_true, List.mem_append, List.mem_singleton]
    constructor
    · rintro ⟨r, mem | rfl, there, rfl⟩
      · exact absurd there (unreceipted h next r mem)
      · rfl
    · intro recorded
      cases recorded
      exact ⟨_, .inr rfl, rfl, rfl⟩
  · rw [if_neg here, ← h.receipts other d']
    constructor
    · rintro ⟨r, mem, there, rfl⟩
      rcases List.mem_append.1 mem with old | last
      · exact ⟨r, old, there, rfl⟩
      · rw [List.mem_singleton.1 last] at there
        exact absurd there here
    · rintro ⟨r, mem, there, rfl⟩
      exact ⟨r, List.mem_append_left _ mem, there, rfl⟩

theorem keys_putMessage (h : Logged σ log) (last : Receipt) :
    ∀ key ∈ (σ.cafe.records.putMessage last.message).messages.keys,
      ∃ r ∈ log ++ [last], key = (r.key.1.text, r.key.2) := by
  intro key mem
  have old : key ∈ σ.cafe.records.messages.keys →
      ∃ r ∈ log ++ [last], key = (r.key.1.text, r.key.2) := by
    intro there
    obtain ⟨r, mem, same⟩ := h.keys key there
    exact ⟨r, List.mem_append_left _ mem, same⟩
  rw [Records.putMessage, Table.keys_put] at mem
  split at mem
  · exact old mem
  · rcases List.mem_append.1 mem with there | new
    · exact old there
    · exact ⟨last, List.mem_append_right _ List.mem_cons_self, List.mem_singleton.1 new⟩

theorem logged_put (h : Logged σ log) (next : σ.tasks[place]? = some (.deliver d (.record id)))
    (done : σ.cafe.putMessage (d.message now id) = .ok c)
    (goes : (Task.deliver d (.record id)).step now σ.cafe = (.deliver d (.announce id), c)) :
    Logged (σ.advance place now (.deliver d (.record id))) (log ++ [⟨place, d, now⟩]) := by
  have named : id = d.bodyId := h.carries _ (List.mem_of_getElem? next)
  subst named
  have records : (σ.advance place now (.deliver d (.record d.bodyId))).cafe.records =
      σ.cafe.records.putMessage (Receipt.message ⟨place, d, now⟩) := by
    simp only [advance, goes, Task.putMessage_eq_ok done]
    rfl
  refine ⟨carries_advance h.carries next now, ?_, receipts_put h next goes, ?_, ?_⟩
  · rw [List.map_append, List.nodup_append]
    refine ⟨h.places, List.pairwise_singleton _ _, ?_⟩
    intro p old q only
    obtain ⟨r, mem, rfl⟩ := List.mem_map.1 old
    rw [List.mem_singleton.1 only]
    exact unreceipted h next r mem
  · intro key
    rw [records, Receipt.get?_putMessage, h.entries key, Receipt.latest_append,
      apply_ite (Option.map Receipt.row)]
    rfl
  · rw [records]
    exact keys_putMessage h _

end

theorem logged_leave (h : Logged σ log) {place : Nat} {now : Instant} {t : Task}
    (next : σ.tasks[place]? = some t) (same : (t.step now σ.cafe).1.recorded? = t.recorded?)
    (messages : (t.step now σ.cafe).2.records.messages = σ.cafe.records.messages) :
    Logged (σ.advance place now t) log where
  carries := carries_advance h.carries next now
  places := h.places
  receipts := by
    intro place' d
    rw [h.receipts place' d, tasks_advance next]
    split
    · next here => rw [← here, next, Option.bind_some, Option.bind_some, same]
    · rfl
  entries := by
    intro key
    rw [advance, messages]
    exact h.entries key
  keys := by
    intro key
    rw [advance, messages]
    exact h.keys key

theorem logged_step (h : Logged σ log) (e : Event) :
    Logged (σ.step e) (log ++ (σ.receipt? e).toList) := by
  cases e with
  | arrive o =>
    simp only [receipt?, Option.toList_none, List.append_nil]
    exact logged_arrive h o
  | disturb faults registry mailbox =>
    simp only [receipt?, Option.toList_none, List.append_nil]
    exact ⟨h.carries, h.places, h.receipts, h.entries, h.keys⟩
  | advance place now =>
    cases next : σ.tasks[place]? with
    | none =>
      simp only [step, receipt?, next, Option.toList_none, List.append_nil]
      exact h
    | some t =>
      rcases Task.records_step t now σ.cafe with
        ⟨d, id, c, rfl, done, goes⟩ | ⟨same, messages, failed⟩
      · simp only [step, receipt?, next, done, Option.toList_some]
        exact logged_put h next done goes
      · have none : σ.receipt? (.advance place now) = none := by
          simp only [receipt?, next]
          split
          · next d id record =>
            cases record
            obtain ⟨e, refused⟩ := failed d id rfl
            rw [refused]
          · rfl
        simp only [step, next, none, Option.toList_none, List.append_nil]
        exact logged_leave h next same messages

theorem logged_run (events : List Event) (h : Logged σ log) :
    Logged (σ.run events) (log ++ σ.log events) := by
  induction events generalizing σ log with
  | nil =>
    rw [Traffic.log, List.append_nil]
    exact h
  | cons e rest ih =>
    rw [Traffic.log, ← List.append_assoc]
    exact ih (logged_step h e)

theorem messages_of_no_receipt {σ : Traffic} {e : Event} (none : σ.receipt? e = none) :
    (σ.step e).cafe.records.messages = σ.cafe.records.messages := by
  cases e with
  | arrive o => rfl
  | disturb faults registry mailbox => rfl
  | advance place now =>
    cases next : σ.tasks[place]? with
    | none => simp only [step, next]
    | some t =>
      rcases Task.records_step t now σ.cafe with ⟨d, id, c, rfl, done, -⟩ | ⟨-, messages, -⟩
      · simp only [receipt?, next, done] at none
        cases none
      · simp only [step, next]
        exact messages

theorem latest_of_entry (h : Logged σ log) {key : String × String} {row : MessageRow}
    (found : σ.cafe.records.messages.get? key = some row) :
    ∃ r, Receipt.latest log r.key = some r ∧ key = (r.key.1.text, r.key.2) ∧ row = r.row := by
  have mem : key ∈ σ.cafe.records.messages.keys :=
    List.mem_map.2 ⟨(key, row), Table.mem_entries_iff.2 found, rfl⟩
  obtain ⟨r, -, rfl⟩ := h.keys key mem
  rw [h.entries r.key, Option.map_eq_some_iff] at found
  obtain ⟨last, latest, rfl⟩ := found
  obtain ⟨-, same⟩ := Receipt.mem_of_latest latest
  rw [← same] at latest ⊢
  exact ⟨last, latest, rfl, rfl⟩

theorem messagesOf_logged (h : Logged σ log) {client : String}
    (readable : ∀ r, Receipt.latest log r.key = some r → r.delivery.recipient = client →
      r.date.HasShortYear) :
    ∃ ms, σ.cafe.records.messagesOf client = .ok ms ∧ (ms.map Message.id).Nodup ∧
      ∀ m, m ∈ ms ↔ ∃ r, Receipt.latest log r.key = some r ∧ r.delivery.recipient = client ∧
        m = r.message.shown := by
  have dates : ∀ id row, σ.cafe.records.messages.get? (id, client) = some row →
      ∃ date : Instant, date.ReadsBack ∧ row.date = date.storedText := by
    intro id row found
    obtain ⟨r, latest, key, rfl⟩ := latest_of_entry h found
    obtain ⟨-, rfl⟩ := Prod.mk.inj key
    exact ⟨r.date.shown, Instant.readsBack_shown (readable r latest rfl),
      r.date.storedText_shown.symm⟩
  obtain ⟨ms, listed, once, mem⟩ := Records.messagesOf_eq_ok dates
  refine ⟨ms, listed, once, fun m => (mem m).trans ⟨?_, ?_⟩⟩
  · obtain ⟨id, peer, client', date⟩ := m
    rintro ⟨rfl, dated, found⟩
    obtain ⟨r, latest, key, row⟩ := latest_of_entry h found
    obtain ⟨rfl, rfl⟩ := Prod.mk.inj key
    obtain ⟨rfl, text⟩ := MessageRow.mk.inj row
    rw [← r.date.storedText_shown] at text
    have shown := Instant.readsBack_shown (readable r latest rfl)
    obtain rfl := Instant.storedText_injective dated shown text
    exact ⟨r, latest, rfl, rfl⟩
  · rintro ⟨r, latest, rfl, rfl⟩
    have found := h.entries r.key
    rw [latest, Option.map_some, Receipt.row, ← r.date.storedText_shown] at found
    exact ⟨rfl, Instant.readsBack_shown (readable r latest rfl), found⟩

/-- Whatever is asked of an empty cafe, and however the requests interleave, fail or break off, at
any clock readings, an inbox holds what its deliveries have put there: one entry for each id, with
the sender and the date of the last time. Listed, the date is as the clock read it; a leap second
within a minute, which clocks do not read, would be the second after it. A message that comes again
changes no file if its objects are stored and pinned. -/
theorem inbox_history (config : Config) (events : List Event) :
    let σ := (start config).run events
    let log := (start config).log events
    (log.map Receipt.place).Nodup ∧
    (∀ (place : Nat) (d : Delivery), (∃ r ∈ log, r.place = place ∧ r.delivery = d) ↔
      σ.tasks[place]? = some (.deliver d (.announce d.bodyId)) ∨
      σ.tasks[place]? = some (.deliver d (.finished (.ok (.queued d.bodyId))))) ∧
    (∀ (place : Nat) (d : Delivery) (id : ContentId),
      σ.tasks[place]? = some (.deliver d (.finished (.ok (.queued id)))) → id = d.bodyId) ∧
    (∀ id client, σ.cafe.records.messages.get? (id.text, client) =
      (Receipt.latest log (id, client)).map fun r => ⟨r.delivery.sender, r.date.storedText⟩) ∧
    (∀ key ∈ σ.cafe.records.messages.keys,
      ∃ r ∈ log, key = (r.delivery.bodyId.text, r.delivery.recipient)) ∧
    (∀ client, (∀ r, Receipt.latest log r.key = some r → r.delivery.recipient = client →
        r.date.HasShortYear) →
      ∃ ms, σ.cafe.records.messagesOf client = .ok ms ∧ (ms.map Message.id).Nodup ∧
        ∀ m, m ∈ ms ↔ ∃ r, Receipt.latest log r.key = some r ∧ r.delivery.recipient = client ∧
          m = r.message.shown) ∧
    (∀ r ∈ log, r.date.Regular → r.message.shown = r.message) ∧
    (∀ e, σ.receipt? e = none →
      (σ.step e).cafe.records.messages = σ.cafe.records.messages) ∧
    ∀ (d : Delivery) (now : Instant),
      (∀ u, d.update = .ok u → ∀ o ∈ d.objects u,
        σ.cafe.content.disk.blocks.get? o.1 ≠ none ∧ σ.cafe.content.disk.pins.get? o.1 ≠ none) →
      SameFiles σ.cafe.content (σ.cafe.deliver now d).2.content := by
  intro σ log
  have logged : Logged σ log := logged_run events (logged_start config)
  have sound : Sound σ.given σ.cafe.content :=
    sound_run events (sound_start config) (List.Subset.refl _)
  refine ⟨logged.places, ?_, ?_, ?_, logged.keys, ?_,
    fun r _ => @Message.shown_of_regular r.message, fun e => messages_of_no_receipt, ?_⟩
  · intro place d
    rw [logged.receipts place d]
    cases there : σ.tasks[place]? with
    | none => simp
    | some t =>
      simp only [Option.bind_some, Option.some.injEq]
      exact Task.recorded?_eq_some_iff (logged.carries t (List.mem_of_getElem? there))
  · intro place d id there
    exact logged.carries _ (List.mem_of_getElem? there)
  · intro id client
    exact logged.entries (id, client)
  · intro client readable
    exact messagesOf_logged logged readable
  · intro d now settled
    apply Cafe.sameFiles_deliver now
    intro u update o object
    obtain ⟨stored, pinned⟩ := settled u update o object
    exact ⟨stored, sound.isPinned pinned⟩

/-! ### A message that comes twice -/

def again : Delivery := { linked with sender := "carol" }

/-- The clock goes back between the two deliveries. -/
def repeated : List Event :=
  let late : Instant := ⟨100, 0, by decide, by decide, Instant.epoch.nanos_lt⟩
  [.arrive (.register ⟨"bob", "", .epoch⟩), .arrive (.keep leaf), .arrive (.deliver linked),
    .arrive (.deliver again)] ++
  [0, 1, 1, 2, 2, 2, 2, 2, 2, 2, 2, 2, 2, 2].map (fun place => .advance place late) ++
  List.replicate 11 (.advance 3 .epoch)

theorem repeated_once :
    (∀ r, Receipt.latest ((start {}).log repeated) r.key = some r → r.delivery.recipient = "bob" →
      r.date.HasShortYear) ∧
    (∀ u, again.update = .ok u → ∀ o ∈ again.objects u,
      ((start {}).run repeated).cafe.content.disk.blocks.get? o.1 ≠ none ∧
        ((start {}).run repeated).cafe.content.disk.pins.get? o.1 ≠ none) ∧
    ((start {}).log repeated).length = 2 ∧
    (∃ ms, ((start {}).run repeated).cafe.records.messagesOf "bob" = .ok ms ∧
      (ms.map Message.id).Nodup ∧ ⟨again.bodyId.text, "carol", "bob", .epoch⟩ ∈ ms) ∧
    SameFiles ((start {}).run repeated).cafe.content
      (((start {}).run repeated).cafe.deliver .epoch again).2.content := by
  have short : ∀ r, Receipt.latest ((start {}).log repeated) r.key = some r →
      r.delivery.recipient = "bob" → r.date.HasShortYear := by
    intro r latest _
    have all : ∀ r ∈ (start {}).log repeated, 0 ≤ r.date.date.year ∧ r.date.date.year ≤ 9999 := by
      decide +kernel
    exact all r (Receipt.mem_of_latest latest).1
  have settled : ∀ u, again.update = .ok u → ∀ o ∈ again.objects u,
      ((start {}).run repeated).cafe.content.disk.blocks.get? o.1 ≠ none ∧
        ((start {}).run repeated).cafe.content.disk.pins.get? o.1 ≠ none := by
    intro u update
    have known : again.update.toOption = some linking := by decide +kernel
    rw [update] at known
    cases known
    decide +kernel
  let r : Receipt := ⟨3, again, .epoch⟩
  have last : Receipt.latest ((start {}).log repeated) r.key = some r := by decide +kernel
  obtain ⟨-, -, -, -, -, listing, -, -, files⟩ := inbox_history {} repeated
  obtain ⟨ms, listed, once, mem⟩ := listing "bob" short
  exact ⟨short, settled, by decide +kernel, ⟨ms, listed, once, (mem _).2 ⟨r, last, rfl, rfl⟩⟩,
    files again .epoch settled⟩

end Traffic

end Relay
