import Relay.Content.Disk
import Relay.Content.Node

/-!
# The content store

Objects are stored under their content id and pinned to be kept: a node recursively, other
bytes directly. A block that is there is never written again, and a recursive pin is never made
a direct one. Files are written in the scratch directory and moved into place, so that a reader
sees whole files only.
-/

namespace Relay

inductive PinMode where
  | notPinned
  | direct
  | recursive
  deriving DecidableEq, Repr

namespace PinMode

def name : PinMode → String
  | notPinned => "none"
  | direct => "direct"
  | recursive => "recursive"

/-- The mode a pin file stands for, by its text without white space around it. Unknown text
stands for no pin. -/
def ofText (s : List Char) : PinMode :=
  let word := String.ofList (Text.trim s)
  if word = direct.name then direct else if word = recursive.name then recursive else notPinned

def isPinned (m : PinMode) : Bool := m != notPinned

end PinMode

inductive ObjectError where
  | notFound (id : ContentId)
  | notANode (id : ContentId)
  | malformed (fault : Wire.Fault)
  | tooLarge (size limit : Nat)
  | io (error : IoError)
  deriving DecidableEq

def ObjectError.message : ObjectError → String
  | .notFound id => s!"Object not found: {id.text}"
  | .notANode id => s!"Object {id.text} is not a structured node"
  | .malformed fault => s!"Malformed object: Malformed node: {fault.message}"
  | .tooLarge size limit => s!"Object too large: {size} bytes (max {limit})"
  | .io error => s!"Content store I/O error: {error.message}"

structure ObjectStore where
  disk : Disk := {}
  /-- The largest object in bytes. -/
  limit : Nat := 1048576
  /-- Names the next scratch file. -/
  nextScratch : Nat := 0

namespace ObjectStore

/-- An operation on the store. One that fails keeps what it did before. -/
abbrev Op := ExceptT ObjectError (StateM ObjectStore)

/-- Does a file step, with its error as it is. -/
def attempt {α : Type} (access : Disk.Access α) : Op (Except IoError α) := fun s =>
  let (r, disk) := access.run.run s.disk
  (.ok r, { s with disk })

def io {α : Type} (access : Disk.Access α) : Op α := do
  match ← attempt access with
  | .ok a => return a
  | .error e => throw (.io e)

/-- Writes a file and moves it into place. On a failure the scratch file is removed. -/
def writeFile (bytes : Bytes) (move : Nat → Disk.Access Unit) : Op Unit := do
  let name := (← get).nextScratch
  modify fun s => { s with nextScratch := name + 1 }
  match ← attempt (do Disk.writeScratch name bytes; move name) with
  | .ok () => return ()
  | .error e =>
    let _ ← attempt (Disk.removeScratch name)
    throw (.io e)

def checkLimit (bytes : Bytes) : Op Unit := do
  let limit := (← get).limit
  let size := bytes.length
  if limit < size then throw (.tooLarge size limit)

/-- Equal ids stand for equal bytes, so a block that is there is left as it is. -/
def addBlock (id : ContentId) (bytes : Bytes) : Op Unit := do
  if !(← io (Disk.blockExists id)) then writeFile bytes (Disk.moveToBlocks · id)

def pinOf? (id : ContentId) : Op (Option PinMode) := do
  match ← attempt (Disk.readPin id) with
  | .error .notFound => return none
  | .error e => throw (.io e)
  | .ok bytes =>
    match Text.Utf8.decode bytes with
    | .ok text => return some (.ofText text)
    | .error _ => throw (.io .notText)

def writePin (id : ContentId) (mode : PinMode) : Op Unit :=
  writeFile (Text.Utf8.ofText mode.name) (Disk.moveToPins · id)

/-- Pins directly, unless the object is pinned recursively. -/
def pinDirectly (id : ContentId) : Op Unit := do
  if (← pinOf? id) ≠ some .recursive then writePin id .direct

/-- Stores a node and pins it recursively. Bytes that are no node are refused. -/
def pinAsNode (bytes : Bytes) : Op ContentId := do
  checkLimit bytes
  match Node.ofBytes bytes with
  | .error fault => throw (.malformed fault)
  | .ok _ =>
    let id := ContentId.of .node bytes
    addBlock id bytes
    writePin id .recursive
    return id

/-- Stores bytes as they are and pins them directly. -/
def pinAsBytes (bytes : Bytes) : Op ContentId := do
  checkLimit bytes
  let id := ContentId.of .raw bytes
  addBlock id bytes
  pinDirectly id
  return id

/-- How an object is pinned; nothing if the store has never seen it. -/
def status (id : ContentId) : Op (Option PinMode) := do
  match ← pinOf? id with
  | some mode => return some mode
  | none => return if ← io (Disk.blockExists id) then some .notPinned else none

def unpin (id : ContentId) : Op Unit := do
  match ← attempt (Disk.removePin id) with
  | .ok () | .error .notFound => return ()
  | .error e => throw (.io e)

def fetch (id : ContentId) : Op Bytes := do
  match ← attempt (Disk.readBlock id) with
  | .ok bytes => return bytes
  | .error .notFound => throw (.notFound id)
  | .error e => throw (.io e)

/-- Reads an object as a node. -/
def readNode (id : ContentId) : Op Node := do
  if id.codec ≠ .node then throw (.notANode id)
  match Node.ofBytes (← fetch id) with
  | .ok node => return node
  | .error fault => throw (.malformed fault)

def contains (id : ContentId) : Op Bool := io (Disk.blockExists id)

/-- Opens the store again, making the directories that are missing. -/
def reopen : Op Unit := do
  io Disk.ensure
  modify fun s => { s with nextScratch := 0 }

/-! ### Changes made behind the store's back -/

/-- Puts an entry under a name whatever is there, if there is a directory. -/
def forceEntry {κ : Type} [DecidableEq κ] (a : Area κ) (k : κ) (e : Entry) : Area κ :=
  match a with
  | .directory entries => .directory (entries.put k e)
  | a => a

def forceBlock (s : ObjectStore) (id : ContentId) (e : Entry) : ObjectStore :=
  { s with disk := { s.disk with blocks := forceEntry s.disk.blocks id e } }

def forcePin (s : ObjectStore) (id : ContentId) (e : Entry) : ObjectStore :=
  { s with disk := { s.disk with pins := forceEntry s.disk.pins id e } }

def dropBlock (s : ObjectStore) (id : ContentId) : ObjectStore :=
  match s.disk.blocks.remove id with
  | .ok blocks => { s with disk := { s.disk with blocks } }
  | .error _ => s

/-- Removes all directories. -/
def wipe (s : ObjectStore) : ObjectStore :=
  { s with disk := { s.disk with blocks := .missing, pins := .missing, scratch := .missing } }

end ObjectStore

end Relay
