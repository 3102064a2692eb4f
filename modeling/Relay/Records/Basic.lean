import Relay.Bytes
import Relay.Instant.Reading
import Relay.IoError
import Relay.Table

/-!
# Records

The relay keeps three kinds of record: registered clients, the thread snapshots a client has
stored, and the inbox entries that wait for a client. Dates are kept as text with nine fraction
digits, and listings are sorted by that text; records of one date stand in the order in which
their keys arrived. A date outside the years 0 to 9999 can be kept but not read back.
-/

namespace Relay

structure Client where
  id : String
  address : String
  created : Instant
  deriving DecidableEq

/-- The snapshot of a thread that one client has stored. -/
structure Snapshot where
  id : String
  client : String
  ciphertext : Bytes
  updated : Instant
  deriving DecidableEq

/-- An entry of a client's inbox. -/
structure Message where
  id : String
  peer : String
  client : String
  date : Instant
  deriving DecidableEq

inductive RecordError where
  /-- The date of a record, in the given column, cannot be read back. -/
  | unreadableDate (column : Nat)
  | io (error : IoError)
  | alreadyPresent
  | poisoned
  | migration (text : String)
  deriving DecidableEq

def RecordError.message : RecordError → String
  | .unreadableDate column =>
    s!"Database error: Conversion error from type Text at index: {column}, " ++
      Instant.Fault.invalid.message
  | .io error => s!"IO error: {error.message}"
  | .alreadyPresent => "Record already exists"
  | .poisoned => "Store lock poisoned"
  | .migration text => s!"Migration error: {text}"

/-- The kept form of a client: its address and date. -/
structure ClientRow where
  address : String
  created : String
  deriving DecidableEq

structure SnapshotRow where
  ciphertext : Bytes
  updated : String
  deriving DecidableEq

structure MessageRow where
  peer : String
  date : String
  deriving DecidableEq

/-- Clients by id, snapshots by thread and client, inbox entries by id and client. -/
structure Records where
  clients : Table String ClientRow := ∅
  snapshots : Table (String × String) SnapshotRow := ∅
  messages : Table (String × String) MessageRow := ∅

namespace Records

def readDate (column : Nat) (text : String) : Except RecordError Instant :=
  match Instant.readStored? text with
  | some t => .ok t
  | none => .error (.unreadableDate column)

/-! ### Clients -/

/-- Registers a client once. -/
def addClient (r : Records) (c : Client) : Except RecordError Records :=
  if r.clients.contains c.id then .error .alreadyPresent
  else .ok { r with clients := r.clients.put c.id ⟨c.address, c.created.storedText⟩ }

def client? (r : Records) (id : String) : Except RecordError (Option Client) :=
  match r.clients.get? id with
  | none => .ok none
  | some row => do return some ⟨id, row.address, ← readDate 2 row.created⟩

def clientCount (r : Records) : Nat := r.clients.size

/-! ### Snapshots -/

/-- Stores a snapshot in the place of the one with its thread and client. -/
def putSnapshot (r : Records) (s : Snapshot) : Records :=
  { r with snapshots := r.snapshots.put (s.id, s.client) ⟨s.ciphertext, s.updated.storedText⟩ }

/-- Removes a snapshot and says whether there was one. -/
def dropSnapshot (r : Records) (thread client : String) : Bool × Records :=
  (r.snapshots.contains (thread, client),
    { r with snapshots := r.snapshots.erase (thread, client) })

def readSnapshot (e : (String × String) × SnapshotRow) : Except RecordError Snapshot := do
  return ⟨e.1.1, e.1.2, e.2.ciphertext, ← readDate 3 e.2.updated⟩

/-- The rows of a client, the newest first. -/
def snapshotRows (r : Records) (client : String) : List ((String × String) × SnapshotRow) :=
  (r.snapshots.entries.filter fun e => e.1.2 == client).mergeSort fun a b =>
    decide (b.2.updated ≤ a.2.updated)

/-- The snapshots of a client, the newest first. One bad date spoils the listing. -/
def snapshotsOf (r : Records) (client : String) : Except RecordError (List Snapshot) :=
  (r.snapshotRows client).mapM readSnapshot

/-! ### Inbox entries -/

def putMessage (r : Records) (m : Message) : Records :=
  { r with messages := r.messages.put (m.id, m.client) ⟨m.peer, m.date.storedText⟩ }

def readMessage (e : (String × String) × MessageRow) : Except RecordError Message := do
  return ⟨e.1.1, e.2.peer, e.1.2, ← readDate 3 e.2.date⟩

/-- The rows of a client's inbox, the oldest first. -/
def messageRows (r : Records) (client : String) : List ((String × String) × MessageRow) :=
  (r.messages.entries.filter fun e => e.1.2 == client).mergeSort fun a b =>
    decide (a.2.date ≤ b.2.date)

/-- The inbox of a client, the oldest entry first. One bad date spoils the listing. -/
def messagesOf (r : Records) (client : String) : Except RecordError (List Message) :=
  (r.messageRows client).mapM readMessage

end Records

/-! ### Opening and closing -/

/-- What is in a file of records. Its tables are there from version 1 on; a file that was left
in the middle of being set up may have some of them before. -/
structure RecordFile where
  version : Nat := 0
  clients : Option (Table String ClientRow) := none
  snapshots : Option (Table (String × String) SnapshotRow) := none
  messages : Option (Table (String × String) MessageRow) := none
  complete : 0 < version → clients.isSome ∧ snapshots.isSome ∧ messages.isSome := by decide

namespace RecordFile

/-- Sets up a file that has no version yet. Tables that are there stay. -/
def migrate (f : RecordFile) : RecordFile :=
  if f.version < 1 then
    { version := 1
      clients := some (f.clients.getD ∅)
      snapshots := some (f.snapshots.getD ∅)
      messages := some (f.messages.getD ∅)
      complete := fun _ => ⟨rfl, rfl, rfl⟩ }
  else f

theorem version_migrate (f : RecordFile) : 0 < f.migrate.version := by
  unfold migrate
  split
  · exact Nat.one_pos
  · next current => exact Nat.not_lt.1 current

/-- The records in a file, which is set up first if it has to be. -/
def load (f : RecordFile) : Records where
  clients := f.migrate.clients.get (f.migrate.complete f.version_migrate).1
  snapshots := f.migrate.snapshots.get (f.migrate.complete f.version_migrate).2.1
  messages := f.migrate.messages.get (f.migrate.complete f.version_migrate).2.2

end RecordFile

namespace Records

/-- The file that records are kept in. -/
def file (r : Records) : RecordFile where
  version := 1
  clients := some r.clients
  snapshots := some r.snapshots
  messages := some r.messages
  complete _ := ⟨rfl, rfl, rfl⟩

/-- Where records are kept. -/
inductive Medium where
  | memory
  | file
  deriving DecidableEq

/-- Opens empty records. A file needs its directory, which something else may be in the way
of. -/
def create (medium : Medium) (directoryBlocked : Bool) : Except RecordError Records :=
  match medium with
  | .memory => .ok (RecordFile.load {})
  | .file => if directoryBlocked then .error (.io .alreadyExists) else .ok (RecordFile.load {})

/-- Closes the records and opens them again. Those in memory are gone. -/
def reopen (medium : Medium) (r : Records) : Records :=
  match medium with
  | .memory => RecordFile.load {}
  | .file => r.file.load

end Records

end Relay
