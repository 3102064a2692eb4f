import Relay.Content.Id
import Relay.IoError
import Relay.Table

/-!
# The store's directories

An object's bytes stand in the directory of blocks, its pin in the directory of pins, and files
are written in a scratch directory first. Someone else may have removed a directory or put
something else in its place, and any step may fail: `faults` says for the steps to come which
do, none of them when it is empty.
-/

namespace Relay

/-- What stands under a name in a directory. -/
inductive Entry where
  | file (bytes : Bytes)
  | directory
  deriving DecidableEq

/-- What stands where a directory should be. -/
inductive Area (κ : Type) where
  | missing
  | plainFile
  | directory (entries : Table κ Entry)

namespace Area

variable {κ : Type} [DecidableEq κ]

def empty : Area κ := .directory ∅

/-- What stands under a name. -/
def get? (a : Area κ) (k : κ) : Option Entry :=
  match a with
  | .directory entries => entries.get? k
  | _ => none

def keys (a : Area κ) : List κ :=
  match a with
  | .directory entries => entries.keys
  | _ => []

def contains (a : Area κ) (k : κ) : Except IoError Bool :=
  match a with
  | .missing => .ok false
  | .plainFile => .error .notADirectory
  | .directory entries => .ok (entries.contains k)

def read (a : Area κ) (k : κ) : Except IoError Bytes :=
  match a with
  | .missing => .error .notFound
  | .plainFile => .error .notADirectory
  | .directory entries =>
    match entries.get? k with
    | none => .error .notFound
    | some .directory => .error .isADirectory
    | some (.file bytes) => .ok bytes

/-- Puts a file under a name, in the place of one that is there. -/
def write (a : Area κ) (k : κ) (bytes : Bytes) : Except IoError (Area κ) :=
  match a with
  | .missing => .error .notFound
  | .plainFile => .error .notADirectory
  | .directory entries =>
    match entries.get? k with
    | some .directory => .error .isADirectory
    | _ => .ok (.directory (entries.put k (.file bytes)))

def remove (a : Area κ) (k : κ) : Except IoError (Area κ) :=
  match a with
  | .missing => .error .notFound
  | .plainFile => .error .notADirectory
  | .directory entries =>
    match entries.get? k with
    | none => .error .notFound
    | some .directory => .error .isADirectory
    | some (.file _) => .ok (.directory (entries.erase k))

/-- Makes the directory if nothing is there. -/
def ensure (a : Area κ) : Except IoError (Area κ) :=
  match a with
  | .missing => .ok empty
  | .plainFile => .error .alreadyExists
  | .directory entries => .ok (.directory entries)

end Area

structure Disk where
  blocks : Area ContentId := .empty
  pins : Area ContentId := .empty
  scratch : Area Nat := .empty
  /-- For each step to come, the error it fails with, if it fails. -/
  faults : List (Option IoError) := []

namespace Disk

/-- A file step that may fail. What earlier steps did stays done. -/
abbrev Access := ExceptT IoError (StateM Disk)

/-- Does one step, unless it is one that fails. -/
def step {α : Type} (f : Disk → Except IoError (α × Disk)) : Access α := fun d =>
  match d.faults with
  | some e :: rest => (.error e, { d with faults := rest })
  | _ =>
    let d := { d with faults := d.faults.tail }
    match f d with
    | .ok (a, d') => (.ok a, d')
    | .error e => (.error e, d)

def blockExists (id : ContentId) : Access Bool :=
  step fun d => (d.blocks.contains id).map (·, d)

def readBlock (id : ContentId) : Access Bytes :=
  step fun d => (d.blocks.read id).map (·, d)

def readPin (id : ContentId) : Access Bytes :=
  step fun d => (d.pins.read id).map (·, d)

def removePin (id : ContentId) : Access Unit :=
  step fun d => (d.pins.remove id).map fun pins => ((), { d with pins })

def writeScratch (name : Nat) (bytes : Bytes) : Access Unit :=
  step fun d => (d.scratch.write name bytes).map fun scratch => ((), { d with scratch })

def removeScratch (name : Nat) : Access Unit :=
  step fun d => (d.scratch.remove name).map fun scratch => ((), { d with scratch })

/-- Moves a scratch file to its place among the blocks. -/
def moveToBlocks (name : Nat) (id : ContentId) : Access Unit :=
  step fun d => do
    let bytes ← d.scratch.read name
    let blocks ← d.blocks.write id bytes
    let scratch ← d.scratch.remove name
    return ((), { d with blocks, scratch })

/-- Moves a scratch file to its place among the pins. -/
def moveToPins (name : Nat) (id : ContentId) : Access Unit :=
  step fun d => do
    let bytes ← d.scratch.read name
    let pins ← d.pins.write id bytes
    let scratch ← d.scratch.remove name
    return ((), { d with pins, scratch })

/-- Makes the directories that are missing. -/
def ensure : Access Unit := do
  step fun d => d.blocks.ensure.map fun blocks => ((), { d with blocks })
  step fun d => d.pins.ensure.map fun pins => ((), { d with pins })
  step fun d => d.scratch.ensure.map fun scratch => ((), { d with scratch })

end Disk

end Relay
