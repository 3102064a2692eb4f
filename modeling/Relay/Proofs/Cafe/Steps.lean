import Relay.Proofs.Cafe.Inbox
import Relay.Proofs.Content.Durability

/-!
# What a step of a request does

A step of a request puts a message into an inbox, or submits the client of one, or does an act on
the content store, or writes to the threads and the clients (`Task.moves_step`). What a step leaves
alone is read off there.
-/

namespace Relay

open ObjectStore

/-- The message is in the inbox when a delivery has come to the stage. -/
def Delivery.Stage.isRecorded : Stage → Bool
  | .announce _ | .finished (.ok (.queued _)) => true
  | _ => false

namespace Task

/-- The message that a request has put into an inbox. -/
def recorded? : Task → Option Delivery
  | .deliver d stage => if stage.isRecorded then some d else none
  | _ => none

def acts : Task → List Act
  | .deliver _ (.pinNode u) => [.pin .node u.node]
  | .deliver _ (.pinBlock u _) => u.block.toList.map (.pin .raw)
  | .deliver d .pinBody => [.pin .raw d.body]
  | .keep bytes => [.pin .node bytes]
  | .keepRaw bytes => [.pin .raw bytes]
  | .unpin id => [.unpin id]
  | _ => []

def Changes (t : Task) (s u : ObjectStore) : Prop := Quiet s u ∨ ∃ a ∈ t.acts, u = (a.op s).2

variable {t : Task} {d : Delivery} {stage : Delivery.Stage} {now : Instant} {c c' : Cafe}

theorem strings_of_mem_acts {a : Act} (mem : a ∈ t.acts) : a.strings ⊆ t.strings := by
  have pin : ∀ {codec : Codec} {b : Bytes}, a = .pin codec b → b ∈ t.strings →
      a.strings ⊆ t.strings := by
    rintro codec b rfl stored
    exact List.cons_subset.2 ⟨stored, List.nil_subset _⟩
  cases t with
  | deliver d stage =>
    cases stage with
    | pinNode u => exact pin (List.mem_singleton.1 mem) List.mem_cons_self
    | pinBlock u node =>
      obtain ⟨b, carried, rfl⟩ := List.mem_map.1 mem
      exact pin rfl carried
    | pinBody => exact pin (List.mem_singleton.1 mem) List.mem_cons_self
    | _ => cases mem
  | keep bytes => exact pin (List.mem_singleton.1 mem) List.mem_cons_self
  | keepRaw bytes => exact pin (List.mem_singleton.1 mem) List.mem_cons_self
  | unpin id =>
    cases List.mem_singleton.1 mem
    exact List.nil_subset _
  | _ => cases mem

/-! ### One step -/

/-- The step neither puts a message into an inbox nor submits a client. -/
structure Silent (t : Task) (now : Instant) (c : Cafe) : Prop where
  recorded : (t.step now c).1.recorded? = t.recorded?
  failed : ∀ d id, t = .deliver d (.record id) → ∃ e, c.putMessage (d.message now id) = .error e
  other : ∀ d id, t ≠ .deliver d (.announce id)

inductive Moves (t : Task) (now : Instant) (c : Cafe) : Prop
  | put (d : Delivery) (id : ContentId) (c' : Cafe) (ready : t = .deliver d (.record id))
      (done : c.putMessage (d.message now id) = .ok c')
      (goes : t.step now c = (.deliver d (.announce id), c'))
  | submit (d : Delivery) (id : ContentId) (ready : t = .deliver d (.announce id))
      (goes : t.step now c = (.deliver d (.finished (.ok (.queued id))), c.submit d.recipient))
  | store (content : ObjectStore) (silent : t.Silent now c) (changes : t.Changes c.content content)
      (goes : (t.step now c).2 = { c with content })
  | write (records : Records) (silent : t.Silent now c)
      (messages : records.messages = c.records.messages)
      (goes : (t.step now c).2 = { c with records })

theorem silent_of_early (early : t.recorded? = none) (apart : ∀ d id, t ≠ .deliver d (.record id))
    (late : (t.step now c).1.recorded? = none) : t.Silent now c where
  recorded := late.trans early.symm
  failed := by
    intro d id record
    exact absurd record (apart d id)
  other := by
    rintro d id rfl
    cases early

theorem moves_of_rest (silent : t.Silent now c) (rest : (t.step now c).2 = c) : t.Moves now c :=
  .store c.content silent (.inl (.refl _)) rest

theorem moves_of_early (early : t.recorded? = none) (apart : ∀ d id, t ≠ .deliver d (.record id))
    (went : (t.step now c).1.recorded? = none ∧ (t.step now c).2 = c) : t.Moves now c :=
  moves_of_rest (silent_of_early early apart went.1) went.2

theorem moves_after {α : Type} {op : Op α} {next : α → Delivery.Stage}
    (goes : d.step now stage c = Delivery.after op next c) (early : stage.isRecorded = false)
    (apart : ∀ id, stage ≠ .record id) (late : ∀ a, (next a).isRecorded = false)
    (changes : (Task.deliver d stage).Changes c.content (op c.content).2) :
    (Task.deliver d stage).Moves now c := by
  have went : (Delivery.after op next c).1.isRecorded = false ∧
      (Delivery.after op next c).2 = { c with content := (op c.content).2 } := by
    unfold Delivery.after Cafe.withContent
    cases op c.content with
    | mk r content =>
      cases r with
      | ok a => exact ⟨late a, rfl⟩
      | error e => exact ⟨rfl, rfl⟩
  rw [← goes] at went
  refine .store _ (silent_of_early ?_ ?_ ?_) changes went.2
  · simp only [recorded?, early]
    rfl
  · rintro d' id ⟨⟩
    exact apart id rfl
  · simp only [step, recorded?, went.1]
    rfl

theorem moves_deliver (d : Delivery) (now : Instant) (stage : Delivery.Stage) (c : Cafe) :
    (Task.deliver d stage).Moves now c := by
  cases stage with
  | lookUp =>
    apply moves_of_early rfl (by simp)
    simp only [step, Delivery.step]
    split
    · exact ⟨rfl, rfl⟩
    · exact ⟨rfl, rfl⟩
    · split <;> exact ⟨rfl, rfl⟩
  | pinNode u =>
    apply moves_after rfl rfl (by simp) fun _ => rfl
    exact .inr ⟨.pin .node u.node, List.mem_cons_self, rfl⟩
  | readNode u id =>
    apply moves_after rfl rfl (by simp) fun _ => rfl
    exact .inl (runs_readNode id c.content).1
  | pinBlock u node =>
    cases carried : u.block with
    | none =>
      have went : d.step now (.pinBlock u node) c = (.walk (.ofNode node none), c) := by
        simp only [Delivery.step, carried]
      apply moves_of_early rfl (by simp)
      simp only [step, went, and_true]
      rfl
    | some b =>
      have went : d.step now (.pinBlock u node) c =
          Delivery.after (pinAsBytes b) (fun id => .walk (.ofNode node (some id))) c := by
        simp only [Delivery.step, carried]
      apply moves_after went rfl (by simp) fun _ => rfl
      refine .inr ⟨.pin .raw b, List.mem_map.2 ⟨b, ?_, rfl⟩, rfl⟩
      rw [carried]
      exact List.mem_cons_self
  | walk w =>
    by_cases ended : w.isOver
    · have went : d.step now (.walk w) c = (.pinBody, c) := if_pos ended
      apply moves_of_early rfl (by simp)
      simp only [step, went, and_true]
      rfl
    · have went : d.step now (.walk w) c = Delivery.after w.step .walk c := if_neg ended
      apply moves_after went rfl (by simp) fun _ => rfl
      exact .inl (w.runs_step c.content).1
  | pinBody =>
    apply moves_after rfl rfl (by simp) fun _ => rfl
    exact .inr ⟨.pin .raw d.body, List.mem_cons_self, rfl⟩
  | record id =>
    cases put : c.putMessage (d.message now id) with
    | ok c' =>
      apply Moves.put d id c' rfl put
      simp only [step, Delivery.step, put]
    | error e =>
      have went : step now (.deliver d (.record id)) c =
          (.deliver d (.refused (.ofRecords e)), c) := by
        simp only [step, Delivery.step, put]
      apply moves_of_rest
      · refine ⟨by rw [went]; rfl, ?_, by simp⟩
        rintro d' id' ⟨⟩
        exact ⟨e, put⟩
      · rw [went]
  | announce id => exact .submit d id rfl rfl
  | finished r => exact moves_of_rest ⟨rfl, by simp, by simp⟩ rfl

theorem moves_change {changed : Except RecordError Cafe} (goes : t.step now c = change c changed)
    (early : t.recorded? = none) (apart : ∀ d id, t ≠ .deliver d (.record id))
    (writes : ∀ c', changed = .ok c' → ∃ records : Records,
      records.messages = c.records.messages ∧ c' = { c with records }) : t.Moves now c := by
  have silent : t.Silent now c := by
    apply silent_of_early early apart
    rw [goes]
    cases changed <;> rfl
  cases changed with
  | ok c' =>
    obtain ⟨records, messages, rfl⟩ := writes c' rfl
    exact .write records silent messages (by rw [goes, change])
  | error e => exact moves_of_rest silent (by rw [goes, change])

theorem writes_putSnapshot {s : Snapshot} (h : c.putSnapshot s = .ok c') :
    ∃ records : Records, records.messages = c.records.messages ∧ c' = { c with records } := by
  cases next_of_checked h
  exact ⟨c.records.putSnapshot s, rfl, rfl⟩

theorem writes_dropSnapshot {thread client : String} (h : c.dropSnapshot thread client = .ok c') :
    ∃ records : Records, records.messages = c.records.messages ∧ c' = { c with records } := by
  cases next_of_checked h
  exact ⟨(c.records.dropSnapshot thread client).2, rfl, rfl⟩

theorem writes_addClient {client : Client} (h : c.addClient client = .ok c') :
    ∃ records : Records, records.messages = c.records.messages ∧ c' = { c with records } := by
  have untouched := untouched_addClient h
  have added := next_of_checked h
  cases adds : c.records.addClient client with
  | error e =>
    rw [adds] at added
    cases added
  | ok records =>
    rw [adds] at added
    cases added
    exact ⟨records, untouched.messages, rfl⟩

theorem moves_step (t : Task) (now : Instant) (c : Cafe) : t.Moves now c := by
  cases t with
  | deliver d stage => exact moves_deliver d now stage c
  | keep bytes =>
    have went : (step now (.keep bytes) c).1.recorded? = none ∧
        (step now (.keep bytes) c).2 = { c with content := (pinAsNode bytes c.content).2 } := by
      simp only [step, Cafe.withContent]
      cases pinAsNode bytes c.content with
      | mk r content => cases r <;> exact ⟨rfl, rfl⟩
    apply Moves.store _ (silent_of_early rfl (by simp) went.1) _ went.2
    exact .inr ⟨.pin .node bytes, List.mem_cons_self, rfl⟩
  | keepRaw bytes =>
    apply Moves.store _ (silent_of_early rfl (by simp) rfl) _ rfl
    exact .inr ⟨.pin .raw bytes, List.mem_cons_self, rfl⟩
  | release id =>
    have went : (step now (.release id) c).1.recorded? = none ∧
        (step now (.release id) c).2 = { c with content := (status id c.content).2 } := by
      simp only [step, Cafe.withContent]
      cases status id c.content with
      | mk r content =>
        cases r with
        | ok mode =>
          dsimp only
          split <;> exact ⟨rfl, rfl⟩
        | error e => exact ⟨rfl, rfl⟩
    apply Moves.store _ (silent_of_early rfl (by simp) went.1) _ went.2
    exact .inl (runs_status id c.content)
  | unpin id =>
    have unpinned : ((Act.unpin id).op c.content).2 = (ObjectStore.unpin id c.content).2 := by
      simp only [Act.op, bind, ExceptT.bind, ExceptT.mk, StateT.bind]
      cases ObjectStore.unpin id c.content with
      | mk r s => cases r <;> rfl
    apply Moves.store _ (silent_of_early rfl (by simp) rfl) _ rfl
    exact .inr ⟨.unpin id, List.mem_cons_self, unpinned.symm⟩
  | putThread client thread ciphertext =>
    apply moves_of_early rfl (by simp)
    simp only [step]
    split <;> exact ⟨rfl, rfl⟩
  | dropThread client thread =>
    apply moves_of_early rfl (by simp)
    simp only [step]
    split <;> exact ⟨rfl, rfl⟩
  | writeThread s => exact moves_change rfl rfl (by simp) fun _ => writes_putSnapshot
  | eraseThread client thread => exact moves_change rfl rfl (by simp) fun _ => writes_dropSnapshot
  | register client => exact moves_change rfl rfl (by simp) fun _ => writes_addClient
  | done => exact moves_of_early rfl (by simp) ⟨rfl, rfl⟩

theorem changes_step (t : Task) (now : Instant) (c : Cafe) :
    t.Changes c.content (t.step now c).2.content := by
  cases moves_step t now c with
  | put d id c' ready done goes =>
    rw [goes, putMessage_eq_ok done]
    exact .inl (.refl _)
  | submit d id ready goes =>
    rw [goes]
    exact .inl (.refl _)
  | store content silent changes goes =>
    rw [goes]
    exact changes
  | write records silent messages goes =>
    rw [goes]
    exact .inl (.refl _)

end Task

end Relay
