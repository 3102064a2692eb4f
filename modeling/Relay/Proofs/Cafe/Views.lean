import Relay.Proofs.Cafe.Exchange
import Relay.Proofs.Search.Listing

/-!
# A client's snapshots beside everything else

What concerns a client's threads is its registration and its own rows, in their order: `Sees`.
The steps of others leave these alone, and neither depend on the rows nor show them: `Masks`
relates two cafes that differ in the rows of one client, and no step of another tells them apart.
-/

namespace Relay

/-! ### Rows of one client -/

namespace Entries

variable {κ α : Type} [DecidableEq κ] {k : κ}

theorem filter_put_of_pos (part : κ → Bool) (here : part k = true) (a : α) (es : List (κ × α)) :
    (put k a es).filter (fun e => part e.1) = put k a (es.filter fun e => part e.1) := by
  induction es with
  | nil => simp [put, here]
  | cons e rest ih =>
    by_cases same : e.1 = k
    · simp [put, same, here]
    · rw [put, if_neg same, List.filter_cons, List.filter_cons, ih]
      split
      · rw [put, if_neg same]
      · rfl

theorem filter_put_of_neg (part : κ → Bool) (there : part k = false) (a : α)
    (es : List (κ × α)) :
    (put k a es).filter (fun e => part e.1) = es.filter fun e => part e.1 := by
  induction es with
  | nil => simp [put, there]
  | cons e rest ih =>
    by_cases same : e.1 = k
    · simp [put, same, there]
    · rw [put, if_neg same, List.filter_cons, List.filter_cons, ih]

theorem filter_erase (part : κ → Bool) (es : List (κ × α)) :
    (erase k es).filter (fun e => part e.1) = erase k (es.filter fun e => part e.1) := by
  rw [erase, erase, List.filter_filter, List.filter_filter]
  exact List.filter_congr fun e _ => Bool.and_comm _ _

theorem filter_erase_of_neg (part : κ → Bool) (there : part k = false) (es : List (κ × α)) :
    (erase k es).filter (fun e => part e.1) = es.filter fun e => part e.1 := by
  rw [erase, List.filter_filter]
  refine List.filter_congr fun e _ => ?_
  by_cases same : e.1 = k
  · rw [same, there, Bool.false_and]
  · simp [same]

end Entries

namespace Records

variable {r r' : Records}

def isOf (client : String) (key : String × String) : Bool := key.2 == client

theorem ownRows_putSnapshot (r : Records) (s : Snapshot) (client : String) :
    (r.putSnapshot s).ownRows client =
      if s.client = client then
        Entries.put (s.id, s.client) ⟨s.ciphertext, s.updated.storedText⟩ (r.ownRows client)
      else r.ownRows client := by
  split
  · next here => exact Entries.filter_put_of_pos (isOf client) (beq_iff_eq.2 here) _ _
  · next there => exact Entries.filter_put_of_neg (isOf client) (beq_eq_false_iff_ne.2 there) _ _

theorem ownRows_dropSnapshot (r : Records) (thread owner client : String) :
    (r.dropSnapshot thread owner).2.ownRows client =
      if owner = client then Entries.erase (thread, owner) (r.ownRows client)
      else r.ownRows client := by
  split
  · exact Entries.filter_erase (isOf client) _
  · next there => exact Entries.filter_erase_of_neg (isOf client) (beq_eq_false_iff_ne.2 there) _

theorem snapshotsOf_congr {client : String} (same : r'.ownRows client = r.ownRows client) :
    r'.snapshotsOf client = r.snapshotsOf client :=
  congrArg (fun rows => (rows.mergeSort fun a b => decide (b.2.updated ≤ a.2.updated)).mapM
    readSnapshot) same

end Records

/-! ### Views -/

namespace Cafe

/-- What a client's threads and searches depend on is the same. -/
structure Sees (p : String) (c c' : Cafe) : Prop where
  config : c'.config = c.config
  registry : c'.registryPoisoned = c.registryPoisoned
  mailbox : c'.mailboxPoisoned = c.mailboxPoisoned
  client : c'.records.clients.get? p = c.records.clients.get? p
  rows : c'.records.ownRows p = c.records.ownRows p

variable {p : String} {c c' c'' : Cafe}

theorem Sees.refl (p : String) (c : Cafe) : Sees p c c := ⟨rfl, rfl, rfl, rfl, rfl⟩

theorem Sees.symm (h : Sees p c c') : Sees p c' c :=
  ⟨h.config.symm, h.registry.symm, h.mailbox.symm, h.client.symm, h.rows.symm⟩

theorem Sees.trans (h : Sees p c c') (h' : Sees p c' c'') : Sees p c c'' :=
  ⟨h'.config.trans h.config, h'.registry.trans h.registry, h'.mailbox.trans h.mailbox,
    h'.client.trans h.client, h'.rows.trans h.rows⟩

def withSnapshots (c : Cafe) (t : Table (String × String) SnapshotRow) : Cafe :=
  { c with records := { c.records with snapshots := t } }

/-- The second cafe is the first but for snapshots of one client. -/
structure Masks (p : String) (c c' : Cafe) : Prop where
  rest : c' = c.withSnapshots c'.records.snapshots
  rows : ∀ q, q ≠ p → c'.records.ownRows q = c.records.ownRows q

variable {α β : Type}

/-- Acts the same on cafes that differ in the client's snapshots. -/
def Blind (p : String) (f : Cafe → α × Cafe) : Prop :=
  ∀ {c c'}, Masks p c c' → (f c').1 = (f c).1 ∧ Masks p (f c).2 (f c').2

/-- Goes on beside the client: does not touch what its threads depend on, nor looks at them. -/
structure Aside (p : String) (f : Cafe → α × Cafe) : Prop where
  blind : Blind p f
  sees : ∀ c, Sees p c (f c).2

/-- What does not look at snapshots at all does not change them either. -/
theorem blind_of_commutes {f : Cafe → α × Cafe}
    (commutes : ∀ c t, f (c.withSnapshots t) = ((f c).1, (f c).2.withSnapshots t)) :
    Blind p f ∧ ∀ c, (f c).2.records.snapshots = c.records.snapshots := by
  have keeps : ∀ c, (f c).2.records.snapshots = c.records.snapshots := by
    intro c
    have same := congrArg Prod.snd (commutes c c.records.snapshots)
    have unchanged : c.withSnapshots c.records.snapshots = c := rfl
    rw [unchanged] at same
    rw [same]
    rfl
  refine ⟨?_, keeps⟩
  intro c c' masks
  rw [masks.rest, commutes]
  refine ⟨rfl, rfl, fun q other => ?_⟩
  have rows := masks.rows q other
  simp only [Records.ownRows] at rows ⊢
  rw [keeps c]
  exact rows

theorem aside_of_commutes {f : Cafe → α × Cafe}
    (commutes : ∀ c t, f (c.withSnapshots t) = ((f c).1, (f c).2.withSnapshots t))
    (config : ∀ c, (f c).2.config = c.config)
    (registry : ∀ c, (f c).2.registryPoisoned = c.registryPoisoned)
    (mailbox : ∀ c, (f c).2.mailboxPoisoned = c.mailboxPoisoned)
    (client : ∀ c, (f c).2.records.clients.get? p = c.records.clients.get? p) : Aside p f := by
  obtain ⟨blind, keeps⟩ := blind_of_commutes (p := p) commutes
  refine ⟨blind, fun c => ⟨config c, registry c, mailbox c, client c, ?_⟩⟩
  rw [Records.ownRows, keeps c]
  rfl

theorem aside_of_still {f : Cafe → α × Cafe} (still : ∀ c, (f c).2 = c)
    (same : ∀ c t, (f (c.withSnapshots t)).1 = (f c).1) : Aside p f := by
  refine aside_of_commutes (fun c t => ?_) ?_ ?_ ?_ ?_
  · rw [still c, ← same c t]
    exact Prod.ext rfl (still _)
  all_goals
    intro c
    rw [still c]

theorem Blind.bind {f : Cafe → α × Cafe} {g : α → Cafe → β × Cafe} (hf : Blind p f)
    (hg : ∀ a, Blind p (g a)) : Blind p fun c => g (f c).1 (f c).2 := by
  intro c c' masks
  obtain ⟨same, after⟩ := hf masks
  dsimp only
  rw [same]
  exact hg _ after

theorem Aside.bind {f : Cafe → α × Cafe} {g : α → Cafe → β × Cafe} (hf : Aside p f)
    (hg : ∀ a, Aside p (g a)) : Aside p fun c => g (f c).1 (f c).2 where
  blind := Blind.bind hf.blind fun a => (hg a).blind
  sees c := (hf.sees c).trans ((hg _).sees _)

theorem aside_of_elsewhere {f : Cafe → α × Cafe}
    (commutes : ∀ c t, f (c.withSnapshots t) = ((f c).1, (f c).2.withSnapshots t))
    (elsewhere : ∀ c, ∃ content messages watchers notifier, (f c).2 =
      { c with content, watchers, notifier, records := { c.records with messages } }) :
    Aside p f := by
  refine aside_of_commutes commutes ?_ ?_ ?_ ?_
  all_goals
    intro c
    obtain ⟨content, messages, watchers, notifier, same⟩ := elsewhere c
    rw [same]

theorem aside_withContent (op : ObjectStore.Op α) : Aside p (withContent op) :=
  aside_of_elsewhere (fun _ _ => rfl) fun _ => ⟨_, _, _, _, rfl⟩

theorem Aside.pure (a : α) : Aside p fun c => (a, c) :=
  aside_of_still (fun _ => rfl) fun _ _ => rfl

theorem Aside.congr {f g : Cafe → α × Cafe} (h : Aside p f) (same : ∀ c, g c = f c) :
    Aside p g := by
  rw [funext same]
  exact h

theorem Aside.reads (read : Cafe → α) (next : α → Cafe → β × Cafe)
    (same : ∀ c t, read (c.withSnapshots t) = read c) (aside : ∀ a, Aside p (next a)) :
    Aside p fun c => next (read c) c :=
  (aside_of_still (f := fun c => (read c, c)) (fun _ => rfl) same).bind aside

theorem Aside.map {f : Cafe → α × Cafe} {g : Cafe → β × Cafe} (h : Aside p f) (result : α → β)
    (goes : ∀ c, g c = (result (f c).1, (f c).2)) : Aside p g := by
  rw [funext goes]
  exact h.bind fun a => Aside.pure (result a)

def goOn {ε : Type} (good : α → Cafe → β × Cafe) (bad : ε → Cafe → β × Cafe) :
    Except ε α → Cafe → β × Cafe
  | .ok a => good a
  | .error e => bad e

theorem Aside.goesOn {ε : Type} {f : Cafe → Except ε α × Cafe} {g : Cafe → β × Cafe}
    {good : α → Cafe → β × Cafe} {bad : ε → Cafe → β × Cafe} (h : Aside p f)
    (hgood : ∀ a, Aside p (good a)) (hbad : ∀ e, Aside p (bad e))
    (ok : ∀ {c a c'}, f c = (.ok a, c') → g c = good a c')
    (error : ∀ {c e c'}, f c = (.error e, c') → g c = bad e c') : Aside p g := by
  have next : ∀ r, Aside p (goOn good bad r) := by
    intro r
    cases r with
    | ok a => exact hgood a
    | error e => exact hbad e
  refine (h.bind next).congr fun c => ?_
  cases ran : f c with
  | mk r c' =>
    cases r with
    | ok a => exact ok ran
    | error e => exact error ran

/-- Steps up to a result, given the induction over them. -/
theorem Aside.steps {σ : Type} {result? : σ → Option β} {step : σ → Cafe → σ × Cafe}
    {run : σ → Cafe → β × Cafe} (h : ∀ s, Aside p (step s))
    (stop : ∀ {s r}, result? s = some r → ∀ c, run s c = (r, c))
    (more : ∀ s c, run (step s c).1 (step s c).2 = run s c)
    (ends : ∀ motive : σ → Cafe → Prop, (∀ s c r, result? s = some r → motive s c) →
      (∀ s c, result? s = none → motive (step s c).1 (step s c).2 → motive s c) →
      ∀ s c, motive s c) (s : σ) : Aside p (run s) where
  blind := by
    intro c c' masks
    -- the two cafes go through the same steps, as no step depends on a snapshot
    revert c' masks
    refine ends (fun s c => ∀ {c'}, Masks p c c' →
      (run s c').1 = (run s c).1 ∧ Masks p (run s c).2 (run s c').2) ?_ ?_ s c
    · intro s c r ended c' masks
      rw [stop ended, stop ended]
      exact ⟨rfl, masks⟩
    · intro s c _ ih c' masks
      obtain ⟨same, after⟩ := (h s).blind masks
      rw [← more s c, ← more s c', same]
      exact ih after
  sees := by
    refine ends (fun s c => Sees p c (run s c).2) ?_ ?_ s
    · intro s c r ended
      rw [stop ended]
      exact Sees.refl p c
    · intro s c _ ih
      rw [← more s c]
      exact ((h s).sees c).trans ih

end Cafe

open Cafe (Aside Sees Masks Blind aside_of_still aside_of_elsewhere)

/-! ### Deliveries -/

namespace Delivery

variable {p : String} (d : Delivery) (now : Instant)

theorem aside_after {α : Type} (op : ObjectStore.Op α) (next : α → Stage) :
    Aside p (after op next) := by
  refine aside_of_elsewhere (fun c t => ?_) fun c => ?_
  all_goals
    simp only [after, Cafe.withContent, Cafe.withSnapshots]
    cases op c.content with
    | mk r content => cases r <;> first | rfl | exact ⟨_, _, _, _, rfl⟩

theorem aside_step (stage : Stage) : Aside p (d.step now stage) := by
  cases stage with
  | lookUp =>
    refine aside_of_still (fun c => ?_) fun c t => ?_
    · simp only [step]
      split
      · rfl
      · rfl
      · split <;> rfl
    · have same : (c.withSnapshots t).client? d.recipient = c.client? d.recipient := rfl
      simp only [step, same]
      split
      · rfl
      · rfl
      · split <;> rfl
  | pinNode u => exact aside_after _ _
  | readNode u id => exact aside_after _ _
  | pinBlock u node =>
    cases block : u.block with
    | none =>
      have goes : d.step now (.pinBlock u node) = fun c => (.walk (.ofNode node none), c) := by
        funext c
        simp only [step, block]
      rw [goes]
      exact Aside.pure _
    | some b =>
      have goes : d.step now (.pinBlock u node) = after (ObjectStore.pinAsBytes b)
          (fun id => .walk (.ofNode node (some id))) := by
        funext c
        simp only [step, block]
      rw [goes]
      exact aside_after _ _
  | walk w =>
    by_cases ended : w.isOver
    · have goes : d.step now (.walk w) = fun c => (.pinBody, c) := funext fun c => if_pos ended
      rw [goes]
      exact Aside.pure _
    · have goes : d.step now (.walk w) = after w.step .walk := funext fun c => if_neg ended
      rw [goes]
      exact aside_after _ _
  | pinBody => exact aside_after _ _
  | record id =>
    refine aside_of_elsewhere (fun c t => ?_) fun c => ?_
    · have same : (c.withSnapshots t).checkMailbox = c.checkMailbox := rfl
      simp only [step, Cafe.putMessage, same]
      cases c.checkMailbox <;> rfl
    · simp only [step, Cafe.putMessage]
      cases c.checkMailbox <;> exact ⟨_, _, _, _, rfl⟩
  | announce id => exact aside_of_elsewhere (fun _ _ => rfl) fun _ => ⟨_, _, _, _, rfl⟩
  | finished r => exact Aside.pure _

theorem aside_run (stage : Stage) : Aside p (d.run now stage) := by
  refine Aside.steps (d.aside_step now) (fun {s r} ended c => ?_) (d.run_step now)
    (run.induct d now) stage
  cases s with
  | finished r' =>
    cases ended
    exact run_finished d now r c
  | _ => cases ended

end Delivery

/-! ### Watch requests -/

namespace Watch

variable {p : String} (client : String) (now : Instant)

theorem aside_step (stage : Stage) : Aside p (step client now stage) := by
  cases stage with
  | check =>
    refine aside_of_still (fun c => ?_) fun c t => ?_
    · simp only [step]
      split <;> rfl
    · have same : (c.withSnapshots t).registered client = c.registered client := rfl
      simp only [step, same]
      split <;> rfl
  | subscribe => exact aside_of_elsewhere (fun _ _ => rfl) fun _ => ⟨_, _, _, _, rfl⟩
  | list id =>
    refine aside_of_elsewhere (fun c t => ?_) fun c => ?_
    · have same : (c.withSnapshots t).inbox client = c.inbox client := rfl
      simp only [step, same]
      split <;> rfl
    · simp only [step]
      split <;> exact ⟨_, _, _, _, rfl⟩
  | push id => exact aside_of_elsewhere (fun _ _ => rfl) fun _ => ⟨_, _, _, _, rfl⟩
  | finished r => exact Aside.pure _

theorem aside_run (stage : Stage) : Aside p (run client now stage) := by
  refine Aside.steps (aside_step client now) (fun {s r} ended c => ?_) (run_step client now)
    (run.induct client now) stage
  cases s with
  | finished r' =>
    cases ended
    exact run_finished client now r c
  | _ => cases ended

end Watch

/-! ### Clients and threads -/

namespace Cafe

variable {ε : Type} {p : String} {c c' : Cafe}

/-- A change of the cafe, if it is not refused. -/
def attempt (op : Cafe → Except ε Cafe) (c : Cafe) : Except ε Unit × Cafe :=
  match op c with
  | .ok c' => (.ok (), c')
  | .error e => (.error e, c)

theorem Masks.config (masks : Masks p c c') : c'.config = c.config := by
  rw [masks.rest]
  rfl

theorem Masks.checkMailbox (masks : Masks p c c') : c'.checkMailbox = c.checkMailbox := by
  rw [masks.rest]
  rfl

theorem Masks.registered (masks : Masks p c c') (q : String) :
    c'.registered q = c.registered q := by
  rw [masks.rest]
  rfl

theorem Masks.snapshotsOf (masks : Masks p c c') {q : String} (other : q ≠ p) :
    c'.snapshotsOf q = c.snapshotsOf q := by
  rw [Cafe.snapshotsOf, Cafe.snapshotsOf, masks.checkMailbox,
    Records.snapshotsOf_congr (masks.rows q other)]

/-- A write to the snapshots that does to the rows of each client what it does by itself. -/
theorem blind_attempt {op : Cafe → Except RecordError Cafe} (write : Records → Records)
    (checked : ∀ c, op c = c.checkMailbox.map fun _ => { c with records := write c.records })
    (rest : ∀ r t, write { r with snapshots := t } =
      { write r with snapshots := (write { r with snapshots := t }).snapshots })
    (rows : ∀ {r r' : Records} {q}, r'.ownRows q = r.ownRows q →
      (write r').ownRows q = (write r).ownRows q) : Blind p (attempt op) := by
  intro c c' masks
  rw [attempt, attempt, checked, checked, masks.checkMailbox]
  cases c.checkMailbox with
  | error e => exact ⟨rfl, masks⟩
  | ok ok =>
    refine ⟨rfl, ?_, fun q other => rows (masks.rows q other)⟩
    have same := rest c.records c'.records.snapshots
    rw [masks.rest]
    exact congrArg (fun records => { c with records }) same

theorem blind_putSnapshot (s : Snapshot) : Blind p (attempt (putSnapshot s)) := by
  refine blind_attempt (·.putSnapshot s) (fun c => ?_) (fun _ _ => rfl) ?_
  · rw [putSnapshot]
    cases c.checkMailbox <;> rfl
  · intro r r' q same
    rw [Records.ownRows_putSnapshot, Records.ownRows_putSnapshot, same]

theorem aside_putSnapshot {s : Snapshot} (other : s.client ≠ p) :
    Aside p (attempt (putSnapshot s)) where
  blind := blind_putSnapshot s
  sees c := by
    rw [attempt, putSnapshot]
    cases c.checkMailbox with
    | error e => exact Sees.refl p c
    | ok ok =>
      refine ⟨rfl, rfl, rfl, rfl, ?_⟩
      exact (c.records.ownRows_putSnapshot s p).trans (if_neg other)

theorem blind_dropSnapshot (thread client : String) :
    Blind p (attempt (dropSnapshot thread client)) := by
  refine blind_attempt (fun r => (r.dropSnapshot thread client).2) (fun c => ?_)
    (fun _ _ => rfl) ?_
  · rw [dropSnapshot]
    cases c.checkMailbox <;> rfl
  · intro r r' q same
    rw [Records.ownRows_dropSnapshot, Records.ownRows_dropSnapshot, same]

theorem aside_dropSnapshot {thread client : String} (other : client ≠ p) :
    Aside p (attempt (dropSnapshot thread client)) where
  blind := blind_dropSnapshot thread client
  sees c := by
    rw [attempt, dropSnapshot]
    cases c.checkMailbox with
    | error e => exact Sees.refl p c
    | ok ok =>
      refine ⟨rfl, rfl, rfl, rfl, ?_⟩
      exact (c.records.ownRows_dropSnapshot thread client p).trans (if_neg other)

theorem blind_addClient (client : Client) : Blind p (attempt (addClient client)) := by
  refine (blind_of_commutes fun c t => ?_).1
  have checked : (c.withSnapshots t).checkRegistry = c.checkRegistry := rfl
  have clients : (c.withSnapshots t).records.clients = c.records.clients := rfl
  simp only [attempt, addClient, Records.addClient, checked, clients]
  cases c.checkRegistry with
  | error e => rfl
  | ok ok => cases c.records.clients.contains client.id <;> rfl

theorem aside_addClient {client : Client} (other : client.id ≠ p) :
    Aside p (attempt (addClient client)) where
  blind := blind_addClient client
  sees c := by
    rw [attempt, addClient, Records.addClient]
    cases c.checkRegistry with
    | error e => exact Sees.refl p c
    | ok ok =>
      cases c.records.clients.contains client.id with
      | true => exact Sees.refl p c
      | false =>
        refine ⟨rfl, rfl, rfl, ?_, rfl⟩
        exact (c.records.clients.get?_put _ _ _).trans (if_neg (Ne.symm other))

theorem id_of_registered {client : String} {owner : Client} (h : c.registered client = .ok owner) :
    owner.id = client := by
  rw [registered, client?] at h
  cases checked : c.checkRegistry with
  | error e =>
    rw [checked] at h
    cases h
  | ok ok =>
    rw [checked] at h
    rw [Records.client?] at h
    cases found : c.records.clients.get? client with
    | none =>
      rw [found] at h
      cases h
    | some row =>
      rw [found] at h
      dsimp only at h
      cases read : Records.readDate 2 row.created with
      | error e =>
        rw [read] at h
        cases h
      | ok date =>
        rw [read] at h
        cases h
        rfl

end Cafe

open Cafe (attempt aside_withContent aside_putSnapshot aside_dropSnapshot aside_addClient
  id_of_registered)

/-! ### Requests in steps -/

namespace Task

variable {p : String} {t : Task}

/-- The request does not register the client or write its threads. -/
def Spares (p : String) : Task → Prop
  | .putThread client _ _ | .dropThread client _ | .eraseThread client _ => client ≠ p
  | .writeThread s => s.client ≠ p
  | .register client => client.id ≠ p
  | _ => True

theorem change_eq (op : Cafe → Except RecordError Cafe) (c : Cafe) :
    change c (op c) = (.done, (attempt op c).2) := by
  unfold change attempt
  cases op c <;> rfl

theorem aside_change {op : Cafe → Except RecordError Cafe} {now : Instant}
    (goes : ∀ c, t.step now c = change c (op c)) (aside : Aside p (attempt op)) :
    Aside p (step now t) :=
  aside.map (fun _ => .done) fun c => (goes c).trans (change_eq op c)

theorem aside_look {now : Instant} (still : ∀ c, (t.step now c).2 = c)
    (same : ∀ c c', (c'.registered = c.registered) → (t.step now c').1 = (t.step now c).1) :
    Aside p (step now t) :=
  aside_of_still still fun c _ => same c _ rfl

theorem aside_step (spares : t.Spares p) (now : Instant) : Aside p (step now t) := by
  cases t with
  | deliver d stage => exact (d.aside_step now stage).map (.deliver d) fun _ => rfl
  | keep bytes =>
    refine (aside_withContent (ObjectStore.pinAsNode bytes)).goesOn (fun _ => Aside.pure .done)
      (fun _ => Aside.pure (.keepRaw bytes)) ?_ ?_
    all_goals
      intro c r c' ran
      simp only [step, ran]
  | keepRaw bytes =>
    exact (aside_withContent (ObjectStore.pinAsBytes bytes)).map (fun _ => .done) fun _ => rfl
  | release id =>
    refine (aside_withContent (ObjectStore.status id)).goesOn
      (fun mode => Aside.pure (if mode.any PinMode.isPinned then .unpin id else .done))
      (fun _ => Aside.pure .done) ?_ ?_
    all_goals
      intro c r c' ran
      simp only [step, ran]
  | unpin id => exact (aside_withContent (ObjectStore.unpin id)).map (fun _ => .done) fun _ => rfl
  | putThread client thread ciphertext =>
    refine aside_look (fun c => ?_) fun c c' same => ?_
    · simp only [step]
      split <;> rfl
    · simp only [step, same]
      split <;> rfl
  | dropThread client thread =>
    refine aside_look (fun c => ?_) fun c c' same => ?_
    · simp only [step]
      split <;> rfl
    · simp only [step, same]
      split <;> rfl
  | writeThread s => exact aside_change (fun _ => rfl) (aside_putSnapshot spares)
  | eraseThread client thread => exact aside_change (fun _ => rfl) (aside_dropSnapshot spares)
  | register client => exact aside_change (fun _ => rfl) (aside_addClient spares)
  | done => exact Aside.pure _

theorem spares_step (spares : t.Spares p) (now : Instant) (c : Cafe) :
    (t.step now c).1.Spares p := by
  cases t with
  | deliver d stage => trivial
  | keep bytes =>
    simp only [step]
    split <;> trivial
  | release id =>
    simp only [step]
    split
    · dsimp only
      split <;> trivial
    · trivial
  | putThread client thread ciphertext =>
    simp only [step]
    cases found : c.registered client with
    | ok owner =>
      rw [← id_of_registered found] at spares
      exact spares
    | error e => trivial
  | dropThread client thread =>
    simp only [step]
    cases found : c.registered client with
    | ok owner =>
      rw [← id_of_registered found] at spares
      exact spares
    | error e => trivial
  | writeThread s | eraseThread client thread | register client =>
    simp only [step, change]
    split <;> trivial
  | _ => trivial

end Task

/-! ### The exchange -/

namespace Exchange

variable {p : String} {σ : Exchange} {e : Event} {c' : Cafe}

/-- The locks are usable, and no request under way is about the client's threads. -/
structure Calm (p : String) (σ : Exchange) : Prop where
  registry : σ.cafe.registryPoisoned = false
  mailbox : σ.cafe.mailboxPoisoned = false
  tasks : ∀ t ∈ σ.traffic.tasks, t.Spares p

def Event.Spares (p : String) : Event → Prop
  | .request (.arrive o) => o.task.Spares p
  | .request (.disturb _ registry mailbox) => registry = false ∧ mailbox = false
  | _ => True

theorem calm_start (config : Config) : Calm p (start config) where
  registry := rfl
  mailbox := rfl
  tasks t mem := by cases mem

/-- What a reader takes from its subscription. -/
def taken (id : SubscriptionId) (c : Cafe) : Option Notice × Cafe :=
  match c.receive id with
  | some (.notice n, c) => (some n, c)
  | _ => (none, c)

theorem aside_taken (id : SubscriptionId) : Aside p (taken id) := by
  refine aside_of_elsewhere (fun c t => ?_) fun c => ?_
  all_goals
    simp only [taken, Cafe.receive, Cafe.withSnapshots]
    cases c.watchers.receive id with
    | none => first | rfl | exact ⟨_, _, _, _, rfl⟩
    | some received =>
      obtain ⟨r, watchers⟩ := received
      cases r <;> first | rfl | exact ⟨_, _, _, _, rfl⟩

theorem step_receive (σ : Exchange) (id : SubscriptionId) :
    σ.step (.receive id) = { σ.withCafe (taken id σ.cafe).2 with
      received := σ.received ++ ((taken id σ.cafe).1.map (id, ·)).toList } := by
  rw [step, taken]
  cases σ.cafe.receive id with
  | none => simp [withCafe, cafe]
  | some received =>
    obtain ⟨r, c⟩ := received
    cases r <;> simp [withCafe, cafe]

theorem sees_step (calm : σ.Calm p) (spares : e.Spares p) : Sees p σ.cafe (σ.step e).cafe := by
  cases e with
  | request e =>
    cases e with
    | arrive o => exact Sees.refl p _
    | advance place now =>
      simp only [step, cafe, Traffic.step]
      cases next : σ.traffic.tasks[place]? with
      | none => exact Sees.refl p _
      | some t =>
        exact (Task.aside_step (calm.tasks t (List.mem_of_getElem? next)) now).sees σ.cafe
    | disturb faults registry mailbox =>
      obtain ⟨rfl, rfl⟩ := spares
      exact ⟨rfl, calm.registry.symm, calm.mailbox.symm, rfl, rfl⟩
  | advance place now =>
    simp only [step]
    cases σ.watches[place]? with
    | none => exact Sees.refl p _
    | some watch => exact (Watch.aside_step watch.1 now watch.2).sees σ.cafe
  | receive id =>
    rw [step_receive]
    exact (aside_taken id).sees σ.cafe
  | watch client => exact Sees.refl p _
  | close id | work now | pass duration | stop | release => exact ⟨rfl, rfl, rfl, rfl, rfl⟩

theorem tasks_step (calm : σ.Calm p) (spares : e.Spares p) :
    ∀ t ∈ (σ.step e).traffic.tasks, t.Spares p := by
  cases e with
  | request e =>
    cases e with
    | arrive o =>
      intro t mem
      obtain mem | mem := List.mem_append.1 mem
      · exact calm.tasks t mem
      · rw [List.mem_singleton.1 mem]
        exact spares
    | advance place now =>
      simp only [step, Traffic.step]
      cases next : σ.traffic.tasks[place]? with
      | none => exact calm.tasks
      | some t =>
        intro t' mem
        obtain mem | rfl := List.mem_or_eq_of_mem_set mem
        · exact calm.tasks t' mem
        · exact Task.spares_step (calm.tasks t (List.mem_of_getElem? next)) now σ.cafe
    | disturb faults registry mailbox => exact calm.tasks
  | advance place now =>
    simp only [step]
    cases σ.watches[place]? with
    | none => exact calm.tasks
    | some watch => exact calm.tasks
  | receive id =>
    rw [step_receive]
    exact calm.tasks
  | watch client | close id | work now | pass duration | stop | release => exact calm.tasks

theorem calm_step (calm : σ.Calm p) (spares : e.Spares p) : (σ.step e).Calm p where
  registry := (sees_step calm spares).registry.trans calm.registry
  mailbox := (sees_step calm spares).mailbox.trans calm.mailbox
  tasks := tasks_step calm spares

theorem masks_elsewhere {f : Cafe → Cafe} {c : Cafe}
    (commutes : ∀ c t, f (c.withSnapshots t) = (f c).withSnapshots t) (masks : Masks p c c') :
    Masks p (f c) (f c') :=
  ((Cafe.blind_of_commutes (f := fun c => ((), f c)) fun c t =>
    Prod.ext rfl (commutes c t)).1 masks).2

theorem submission_of_masks (masks : Masks p σ.cafe c') (e : Traffic.Event) :
    (σ.withCafe c').submission? e = σ.submission? e := by
  rw [masks.rest]
  rfl

theorem releasedBy_of_masks {c d d' : Cafe} (masks : Masks p c c') (after : Masks p d d')
    (t : Task) (released : List ContentId) :
    Traffic.releasedBy t c' d' released = Traffic.releasedBy t c d released := by
  rw [masks.rest, after.rest]
  rfl

/-- No step of others tells apart what differs in the client's snapshots only. -/
theorem masks_step (calm : σ.Calm p) (masks : Masks p σ.cafe c') :
    ∃ c'', (σ.withCafe c').step e = (σ.step e).withCafe c'' ∧ Masks p (σ.step e).cafe c'' := by
  cases e with
  | request e =>
    have taken := submission_of_masks masks e
    cases e with
    | arrive o => exact ⟨c', rfl, masks⟩
    | advance place now =>
      cases next : σ.traffic.tasks[place]? with
      | none =>
        have still : ∀ c, (σ.withCafe c).traffic.step (.advance place now) =
            (σ.withCafe c).traffic := by
          intro c
          simp only [withCafe, Traffic.step, next]
        refine ⟨c', ?_, ?_⟩
        · simp only [step, still, taken]
          simp only [withCafe, Traffic.step, next]
        · simp only [step, cafe, Traffic.step, next]
          exact masks
      | some t =>
        have spares := calm.tasks t (List.mem_of_getElem? next)
        obtain ⟨same, after⟩ := (Task.aside_step spares now).blind masks
        have released := releasedBy_of_masks masks after t σ.traffic.released
        refine ⟨(t.step now c').2, ?_, ?_⟩
        · simp only [step, taken]
          simp only [withCafe, Traffic.step, next, Traffic.advance, same, cafe] at released ⊢
          rw [released]
        · simp only [step, cafe, Traffic.step, next]
          exact after
    | disturb faults registry mailbox =>
      exact ⟨_, rfl, masks_elsewhere (f := Traffic.disturb faults registry mailbox)
        (fun _ _ => rfl) masks⟩
  | advance place now =>
    cases next : σ.watches[place]? with
    | none =>
      refine ⟨c', ?_, ?_⟩
      · simp only [step, withCafe, next]
      · simp only [step, next]
        exact masks
    | some watch =>
      obtain ⟨same, after⟩ := (Watch.aside_step watch.1 now watch.2).blind masks
      refine ⟨(Watch.step watch.1 now watch.2 c').2, ?_, ?_⟩
      · simp only [step, withCafe, next, cafe] at same ⊢
        rw [same]
      · simp only [step, next]
        exact after
  | receive id =>
    obtain ⟨same, after⟩ := (aside_taken id).blind masks
    have cafe' : (σ.withCafe c').cafe = c' := rfl
    refine ⟨(taken id c').2, ?_, ?_⟩
    · rw [step_receive, step_receive, cafe', same]
      rfl
    · rw [step_receive]
      exact after
  | watch client => exact ⟨c', rfl, masks⟩
  | close id =>
    exact ⟨_, rfl, masks_elsewhere (f := Cafe.unsubscribe id) (fun _ _ => rfl) masks⟩
  | work now =>
    exact ⟨_, rfl, masks_elsewhere (f := fun c => c.afterTurn (c.notifier.step (Watchers.sink now)
      c.watchers)) (fun _ _ => rfl) masks⟩
  | pass duration =>
    exact ⟨_, rfl, masks_elsewhere (f := fun c => { c with notifier :=
      { c.notifier with now := c.notifier.now + duration } }) (fun _ _ => rfl) masks⟩
  | stop =>
    exact ⟨_, rfl, masks_elsewhere (f := fun c => { c with notifier := c.notifier.stop })
      (fun _ _ => rfl) masks⟩
  | release =>
    exact ⟨_, rfl, masks_elsewhere (f := fun c => { c with notifier := c.notifier.release })
      (fun _ _ => rfl) masks⟩

end Exchange

end Relay
