import Relay.Cafe.Basic
import Relay.Proofs.Records.Messages

/-!
# Records as maps

The record store is three finite maps: clients by id, snapshots by thread and client, inbox
entries by id and client. What it answers to any calls is what the maps answer, whether it is
asked directly or through the mailbox of a cafe, and wherever its file is closed and opened
again. A date outside the years 0 to 9999 comes between a record and its reader, and a leap second
within a minute is read as the second after it.
-/

namespace Relay

open Records (readDate)

/-! ### Tables and maps -/

def Maps.set {κ α : Type} [DecidableEq κ] (m : κ → Option α) (k : κ) (value : Option α) :
    κ → Option α :=
  fun k' => if k' = k then value else m k'

section Keeps

variable {κ α ρ : Type} [DecidableEq κ] {key : α → κ} {row : α → ρ} {m : κ → Option α}
  {t : Table κ ρ}

/-- The table holds the records of the map, each under its own key and in its kept form. -/
structure Keeps (key : α → κ) (row : α → ρ) (m : κ → Option α) (t : Table κ ρ) : Prop where
  rows : ∀ k, t.get? k = (m k).map row
  keyed : ∀ {k a}, m k = some a → key a = k

theorem keeps_empty (key : α → κ) (row : α → ρ) : Keeps key row (fun _ => none) ∅ where
  rows _ := rfl
  keyed found := by cases found

theorem Keeps.put (h : Keeps key row m t) (a : α) :
    Keeps key row (Maps.set m (key a) (some a)) (t.put (key a) (row a)) where
  rows k := by
    rw [Table.get?_put, Maps.set]
    split
    · rfl
    · exact h.rows k
  keyed := by
    intro k b found
    rw [Maps.set] at found
    split at found
    · next here =>
      cases found
      exact here.symm
    · exact h.keyed found

theorem Keeps.erase (h : Keeps key row m t) (k : κ) :
    Keeps key row (Maps.set m k none) (t.erase k) where
  rows k' := by
    rw [Table.get?_erase, Maps.set]
    split
    · rfl
    · exact h.rows k'
  keyed := by
    intro k' b found
    rw [Maps.set] at found
    split at found
    · cases found
    · exact h.keyed found

theorem Keeps.contains (h : Keeps key row m t) (k : κ) : t.contains k = (m k).isSome := by
  rw [Table.contains, h.rows k, Option.isSome_map]

/-- The keys of the table are those of the map, each once. -/
theorem Keeps.size (h : Keeps key row m t) :
    ∃ keys : List κ, keys.Nodup ∧ (∀ k, k ∈ keys ↔ (m k).isSome) ∧ t.size = keys.length := by
  refine ⟨t.keys, t.nodup, fun k => ?_, List.length_map _ |>.symm⟩
  have absent := t.get?_eq_none_iff k
  rw [h.rows k, Option.map_eq_none_iff] at absent
  cases found : m k with
  | none => simpa [found] using absent
  | some a => simpa [found] using absent

theorem Keeps.rows_eq (h : Keeps key row m t) {rows : List (κ × ρ)}
    (kept : ∀ e ∈ rows, (m e.1).map row = some e.2) :
    rows = (rows.filterMap fun e => m e.1).map fun a => (key a, row a) := by
  induction rows with
  | nil => rfl
  | cons e rows ih =>
    obtain ⟨a, found, here⟩ := Option.map_eq_some_iff.1 (kept e List.mem_cons_self)
    have rest := ih fun e mem => kept e (List.mem_cons_of_mem _ mem)
    rw [List.filterMap_cons, found]
    dsimp only
    rw [List.map_cons, h.keyed found, here, ← rest]

/-- The rows of a part of the keys, in whatever order, are so many records of the map. -/
theorem Keeps.exists_rows (h : Keeps key row m t) {rows : List (κ × ρ)} (part : κ → Bool)
    (perm : rows.Perm (t.entries.filter fun e => part e.1)) :
    ∃ own : List α, rows = own.map (fun a => (key a, row a)) ∧ own.Nodup ∧
      ∀ a, a ∈ own ↔ part (key a) = true ∧ m (key a) = some a := by
  have mem : ∀ e, e ∈ rows ↔ (m e.1).map row = some e.2 ∧ part e.1 = true := by
    intro e
    rw [perm.mem_iff, List.mem_filter, Table.mem_entries_iff, h.rows]
  have split := h.rows_eq fun e inside => ((mem e).1 inside).1
  refine ⟨_, split, ?_, fun a => ?_⟩
  · have entries := t.nodup.sublist ((List.filter_sublist (p := fun e => part e.1)).map Prod.fst)
    have keys : (rows.map Prod.fst).Nodup := (perm.map Prod.fst).nodup_iff.2 entries
    rw [split, List.map_map] at keys
    exact List.Pairwise.of_map _ (fun a b ne same => ne (congrArg _ same)) keys
  · rw [List.mem_filterMap]
    constructor
    · rintro ⟨e, inside, found⟩
      obtain ⟨-, here⟩ := (mem e).1 inside
      rw [h.keyed found]
      exact ⟨here, found⟩
    · rintro ⟨here, found⟩
      refine ⟨(key a, row a), (mem _).2 ⟨?_, here⟩, found⟩
      rw [found, Option.map_some]

end Keeps

/-! ### Calls -/

namespace Records

inductive Call where
  | register (client : Client)
  | find (id : String)
  | count
  | putSnapshot (s : Snapshot)
  | dropSnapshot (thread client : String)
  | snapshots (client : String)
  | putMessage (m : Message)
  | messages (client : String)
  | reopen

inductive Answer where
  | done
  | there (removed : Bool)
  | client (client : Option Client)
  | number (n : Nat)
  | snapshots (list : List Snapshot)
  | messages (list : List Message)

abbrev Reply := Except RecordError Answer

def perform (r : Records) : Call → Reply × Records
  | .register client =>
    match r.addClient client with
    | .ok r => (.ok .done, r)
    | .error e => (.error e, r)
  | .find id => ((r.client? id).map .client, r)
  | .count => (.ok (.number r.clientCount), r)
  | .putSnapshot s => (.ok .done, r.putSnapshot s)
  | .dropSnapshot thread client =>
    let (removed, r) := r.dropSnapshot thread client
    (.ok (.there removed), r)
  | .snapshots client => ((r.snapshotsOf client).map .snapshots, r)
  | .putMessage m => (.ok .done, r.putMessage m)
  | .messages client => ((r.messagesOf client).map .messages, r)
  | .reopen => (.ok .done, r.reopen .file)

inductive Path where
  | direct
  | mailbox

/-- A mailbox does not say whether there was something to remove. -/
def Path.shown : Path → Answer → Answer
  | .mailbox, .there _ => .done
  | _, answer => answer

end Records

open Records (Call Answer Reply Path)

namespace Cafe

def written (c : Cafe) : Except RecordError Cafe → Reply × Cafe
  | .ok c => (.ok .done, c)
  | .error e => (.error e, c)

def perform (c : Cafe) : Call → Reply × Cafe
  | .register client => c.written (c.addClient client)
  | .find id => ((c.client? id).map .client, c)
  | .count => (c.clientCount.map .number, c)
  | .putSnapshot s => c.written (c.putSnapshot s)
  | .dropSnapshot thread client => c.written (c.dropSnapshot thread client)
  | .snapshots client => ((c.snapshotsOf client).map .snapshots, c)
  | .putMessage m => c.written (c.putMessage m)
  | .messages client => ((c.messagesOf client).map .messages, c)
  | .reopen => (.ok .done, { c with records := c.records.reopen .file })

def ask (c : Cafe) : Path → Call → Reply × Cafe
  | .mailbox, call => c.perform call
  | .direct, call =>
    let (reply, records) := c.records.perform call
    (reply, { c with records })

def replies (c : Cafe) : List (Path × Call) → List Reply
  | [] => []
  | (path, call) :: calls => (c.ask path call).1 :: (c.ask path call).2.replies calls

end Cafe

/-! ### What maps answer -/

structure Maps where
  clients : String → Option Client := fun _ => none
  snapshots : String × String → Option Snapshot := fun _ => none
  messages : String × String → Option Message := fun _ => none

def Client.row (c : Client) : ClientRow := ⟨c.address, c.created.storedText⟩

/-- A client with the date that calendar and clock show. -/
def Client.shown (c : Client) : Client := { c with created := c.created.shown }

def Snapshot.key (s : Snapshot) : String × String := (s.id, s.client)

def Snapshot.row (s : Snapshot) : SnapshotRow := ⟨s.ciphertext, s.updated.storedText⟩

def Snapshot.shown (s : Snapshot) : Snapshot := { s with updated := s.updated.shown }

def Message.key (m : Message) : String × String := (m.id, m.client)

def Message.row (m : Message) : MessageRow := ⟨m.peer, m.date.storedText⟩

namespace Maps

/-- The records of a client, each once, as they are shown; or none of them if a date is out of
reach. -/
def Lists {α : Type} (key : α → String × String) (date : α → Instant) (shown : α → α)
    (m : String × String → Option α) (client : String) (reply : Except RecordError (List α)) :
    Prop :=
  ∃ own : List α, own.Nodup ∧ (∀ a, a ∈ own ↔ (key a).2 = client ∧ m (key a) = some a) ∧
    ((∀ a ∈ own, (date a).HasShortYear) → reply = .ok (own.map shown)) ∧
    (¬(∀ a ∈ own, (date a).HasShortYear) → reply = .error (.unreadableDate 3))

def Answers (m : Maps) : Call → Reply → Prop
  | .register c, reply =>
    reply = if (m.clients c.id).isSome then .error .alreadyPresent else .ok .done
  | .find id, reply =>
    match m.clients id with
    | none => reply = .ok (.client none)
    | some c =>
      (c.created.HasShortYear → reply = .ok (.client (some c.shown))) ∧
        (¬c.created.HasShortYear → reply = .error (.unreadableDate 2))
  | .count, reply =>
    ∃ ids : List String, ids.Nodup ∧ (∀ id, id ∈ ids ↔ (m.clients id).isSome) ∧
      reply = .ok (.number ids.length)
  | .putSnapshot _, reply | .putMessage _, reply | .reopen, reply => reply = .ok .done
  | .dropSnapshot thread client, reply =>
    reply = .ok (.there (m.snapshots (thread, client)).isSome)
  | .snapshots client, reply =>
    ∃ listing, reply = listing.map .snapshots ∧
      Lists Snapshot.key Snapshot.updated Snapshot.shown m.snapshots client listing
  | .messages client, reply =>
    ∃ listing, reply = listing.map .messages ∧
      Lists Message.key Message.date Message.shown m.messages client listing

def after (m : Maps) : Call → Maps
  | .register c =>
    if (m.clients c.id).isSome then m else { m with clients := set m.clients c.id (some c) }
  | .putSnapshot s => { m with snapshots := set m.snapshots s.key (some s) }
  | .dropSnapshot thread client => { m with snapshots := set m.snapshots (thread, client) none }
  | .putMessage e => { m with messages := set m.messages e.key (some e) }
  | _ => m

/-- The replies to calls, as the paths they go show them. -/
def AnswersAll (m : Maps) : List (Path × Call) → List Reply → Prop
  | [], replies => replies = []
  | (path, call) :: calls, replies =>
    ∃ reply rest, replies = reply.map path.shown :: rest ∧ m.Answers call reply ∧
      (m.after call).AnswersAll calls rest

end Maps

/-! ### One call -/

namespace Records

structure Refines (r : Records) (m : Maps) : Prop where
  clients : Keeps Client.id Client.row m.clients r.clients
  snapshots : Keeps Snapshot.key Snapshot.row m.snapshots r.snapshots
  messages : Keeps Message.key Message.row m.messages r.messages

theorem refines_empty : Refines {} {} :=
  ⟨keeps_empty _ _, keeps_empty _ _, keeps_empty _ _⟩

theorem readDate_of_short (column : Nat) {t : Instant} (short : t.HasShortYear) :
    readDate column t.storedText = .ok t.shown := by
  rw [readDate, Instant.readStored?_of_short short]

theorem readDate_of_long (column : Nat) {t : Instant} (long : ¬t.HasShortYear) :
    readDate column t.storedText = .error (.unreadableDate column) := by
  rw [readDate, Instant.readStored?_of_long long]

/-- A listing reads the rows of a client, which may stand in any order. -/
theorem lists_of_keeps {α ρ : Type} {key : α → String × String} {row : α → ρ}
    {m : String × String → Option α} {t : Table (String × String) ρ} (h : Keeps key row m t)
    {date : α → Instant} {shown : α → α} {client : String} {rows : List ((String × String) × ρ)}
    {read : (String × String) × ρ → Except RecordError α}
    (perm : rows.Perm (t.entries.filter fun e => e.1.2 == client))
    (reads : ∀ a, (date a).HasShortYear → read (key a, row a) = .ok (shown a))
    (fails : ∀ a, ¬(date a).HasShortYear → read (key a, row a) = .error (.unreadableDate 3)) :
    Maps.Lists key date shown m client (rows.mapM read) := by
  obtain ⟨own, rfl, nodup, mem⟩ := h.exists_rows (fun k => k.2 == client) perm
  refine ⟨own, nodup, fun a => ?_, fun short => ?_, fun long => ?_⟩
  · rw [mem, beq_iff_eq]
  · rw [mapM_eq_ok_iff, List.map_map, List.map_map]
    exact List.map_congr_left fun a inside => reads a (short a inside)
  · refine mapM_eq_error ?_ ?_
    · intro e inside fault failed
      obtain ⟨a, -, rfl⟩ := List.mem_map.1 inside
      by_cases short : (date a).HasShortYear
      · rw [reads a short] at failed
        cases failed
      · rw [fails a short] at failed
        cases failed
        rfl
    · obtain ⟨a, bad⟩ := Classical.not_forall.1 long
      obtain ⟨inside, bad⟩ := Classical.not_imp.1 bad
      exact ⟨_, List.mem_map_of_mem inside, fails a bad⟩

theorem lists_snapshots {m : Maps} {r : Records} (h : r.Refines m) (client : String) :
    Maps.Lists Snapshot.key Snapshot.updated Snapshot.shown m.snapshots client
      (r.snapshotsOf client) := by
  refine lists_of_keeps h.snapshots (List.mergeSort_perm _ _) (fun s short => ?_) fun s long => ?_
  · rw [readSnapshot, Snapshot.row, readDate_of_short 3 short]
    rfl
  · rw [readSnapshot, Snapshot.row, readDate_of_long 3 long]
    rfl

theorem lists_messages {m : Maps} {r : Records} (h : r.Refines m) (client : String) :
    Maps.Lists Message.key Message.date Message.shown m.messages client
      (r.messagesOf client) := by
  refine lists_of_keeps h.messages (List.mergeSort_perm _ _) (fun e short => ?_) fun e long => ?_
  · rw [readMessage, Message.row, readDate_of_short 3 short]
    rfl
  · rw [readMessage, Message.row, readDate_of_long 3 long]
    rfl

/-- A file holds what was in it when it is opened again, set up or not. -/
theorem load_eq (f : RecordFile) :
    f.load = ⟨f.clients.getD ∅, f.snapshots.getD ∅, f.messages.getD ∅⟩ := by
  have there : ∀ {α : Type} {table : Option α} (empty : α), table.isSome →
      table = some (table.getD empty) := by
    intro α table empty some
    obtain ⟨t, rfl⟩ := Option.isSome_iff_exists.1 some
    rfl
  have tables : f.migrate.clients = some (f.clients.getD ∅) ∧
      f.migrate.snapshots = some (f.snapshots.getD ∅) ∧
      f.migrate.messages = some (f.messages.getD ∅) := by
    unfold RecordFile.migrate
    split
    · exact ⟨rfl, rfl, rfl⟩
    · next current =>
      obtain ⟨clients, snapshots, messages⟩ := f.complete (Nat.not_lt.1 current)
      exact ⟨there _ clients, there _ snapshots, there _ messages⟩
  obtain ⟨clients, snapshots, messages⟩ := tables
  rw [RecordFile.load, Option.get_of_eq_some _ clients, Option.get_of_eq_some _ snapshots,
    Option.get_of_eq_some _ messages]

theorem reopen_file (r : Records) : r.reopen .file = r := load_eq r.file

theorem answers_perform {m : Maps} {r : Records} (h : r.Refines m) (call : Call) :
    m.Answers call (r.perform call).1 ∧ (r.perform call).2.Refines (m.after call) := by
  cases call with
  | register c =>
    simp only [perform, addClient, h.clients.contains, Maps.Answers, Maps.after]
    cases (m.clients c.id).isSome with
    | true => exact ⟨rfl, h⟩
    | false => exact ⟨rfl, h.clients.put c, h.snapshots, h.messages⟩
  | find id =>
    refine ⟨?_, h⟩
    simp only [perform, Maps.Answers, client?, h.clients.rows]
    cases found : m.clients id with
    | none => rfl
    | some c =>
      obtain rfl : c.id = id := h.clients.keyed found
      refine ⟨fun short => ?_, fun long => ?_⟩
      · simp only [Option.map_some, Client.row, readDate_of_short 2 short]
        rfl
      · simp only [Option.map_some, Client.row, readDate_of_long 2 long]
        rfl
  | count =>
    obtain ⟨ids, nodup, mem, size⟩ := h.clients.size
    refine ⟨⟨ids, nodup, mem, ?_⟩, h⟩
    rw [← size]
    rfl
  | putSnapshot s => exact ⟨rfl, h.clients, h.snapshots.put s, h.messages⟩
  | dropSnapshot thread client =>
    refine ⟨?_, h.clients, h.snapshots.erase (thread, client), h.messages⟩
    show _ = _
    rw [← h.snapshots.contains]
    rfl
  | snapshots client => exact ⟨⟨_, rfl, lists_snapshots h client⟩, h⟩
  | putMessage e => exact ⟨rfl, h.clients, h.snapshots, h.messages.put e⟩
  | messages client => exact ⟨⟨_, rfl, lists_messages h client⟩, h⟩
  | reopen =>
    refine ⟨rfl, ?_⟩
    have same : (r.perform .reopen).2 = r := r.reopen_file
    rw [same]
    exact h

end Records

/-! ### Through the mailbox -/

namespace Cafe

/-- Nobody broke off while holding the records. -/
def IsSound (c : Cafe) : Prop := c.registryPoisoned = false ∧ c.mailboxPoisoned = false

theorem ask_eq {c : Cafe} (sound : c.IsSound) (path : Path) (call : Call) :
    c.ask path call = ((c.records.perform call).1.map path.shown,
      { c with records := (c.records.perform call).2 }) := by
  cases path with
  | direct =>
    have same : ∀ reply : Reply, reply.map (Path.shown .direct) = reply := by
      intro reply
      cases reply <;> rfl
    rw [same]
    rfl
  | mailbox =>
    obtain ⟨registry, mailbox⟩ := sound
    have registry : c.checkRegistry = .ok () := by simp [checkRegistry, registry]
    have mailbox : c.checkMailbox = .ok () := by simp [checkMailbox, mailbox]
    cases call with
    | register client =>
      simp only [ask, perform, addClient, registry, Records.perform]
      cases c.records.addClient client <;> rfl
    | find id =>
      simp only [ask, perform, client?, registry, Records.perform]
      cases c.records.client? id <;> rfl
    | snapshots client =>
      simp only [ask, perform, snapshotsOf, mailbox, Records.perform]
      cases c.records.snapshotsOf client <;> rfl
    | messages client =>
      simp only [ask, perform, messagesOf, mailbox, Records.perform]
      cases c.records.messagesOf client <;> rfl
    | count => simp only [ask, perform, clientCount, registry]; rfl
    | putSnapshot s => simp only [ask, perform, putSnapshot, mailbox]; rfl
    | dropSnapshot thread client => simp only [ask, perform, dropSnapshot, mailbox]; rfl
    | putMessage e => simp only [ask, perform, putMessage, mailbox]; rfl
    | reopen => rfl

/-! ### Runs -/

theorem answersAll_replies {c : Cafe} {m : Maps} (sound : c.IsSound)
    (refines : c.records.Refines m) (calls : List (Path × Call)) :
    m.AnswersAll calls (c.replies calls) := by
  induction calls generalizing c m with
  | nil => rfl
  | cons next calls ih =>
    obtain ⟨path, call⟩ := next
    obtain ⟨answers, refines⟩ := Records.answers_perform refines call
    rw [replies, ask_eq sound]
    exact ⟨_, _, rfl, answers, ih sound refines⟩

end Cafe

/-- From an empty file on, calls are answered as three maps would answer them. -/
theorem records_refine_maps (config : Config) (calls : List (Path × Call)) :
    ∃ records, Records.create .file false = .ok records ∧
      Maps.AnswersAll {} calls ({ Cafe.ofConfig config with records }.replies calls) := by
  have start : RecordFile.load {} = {} := Records.load_eq {}
  refine ⟨{}, congrArg Except.ok start, Cafe.answersAll_replies ⟨rfl, rfl⟩ ?_ calls⟩
  exact Records.refines_empty

/-! ### A date within a minute -/

/-- Dated in a leap second four seconds into a minute. -/
def Message.misplaced : Message :=
  ⟨"m", "peer", "me", (Instant.of? 86164 1500000000).getD .epoch⟩

/-- The entry is listed with another date than it had, and the mailbox answers alike whether there
is a snapshot to remove or not. -/
theorem misplaced_listed_later :
    (Cafe.ofConfig {}).replies [(.direct, .putMessage .misplaced), (.direct, .messages "me"),
        (.mailbox, .dropSnapshot "t" "me")] =
      [.ok .done, .ok (.messages [{ Message.misplaced with
          date := ⟨86165, 500000000, by decide, by decide, by decide⟩ }]), .ok .done] ∧
    Message.misplaced.date.HasShortYear ∧
    (⟨86165, 500000000, by decide, by decide, by decide⟩ : Instant) ≠ Message.misplaced.date := by
  have short : Message.misplaced.date.HasShortYear := ⟨by decide, by decide⟩
  have listed : (Records.putMessage {} .misplaced).messagesOf "me" =
      .ok [Message.misplaced.shown] := by
    have rows : (Records.putMessage {} .misplaced).messageRows "me" =
        [(Message.misplaced.key, Message.misplaced.row)] := List.mergeSort_singleton _
    rw [Records.messagesOf, rows, List.mapM_cons, Records.readMessage, Message.row,
      Records.readDate_of_short 3 short]
    rfl
  refine ⟨?_, short, by decide⟩
  have replied : (Cafe.ofConfig {}).replies [(.direct, .putMessage .misplaced),
      (.direct, .messages "me"), (.mailbox, .dropSnapshot "t" "me")] =
      [.ok .done, ((Records.putMessage {} .misplaced).messagesOf "me").map .messages,
        .ok .done] := rfl
  rw [replied, listed]
  rfl

end Relay
