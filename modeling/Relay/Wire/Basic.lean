import Relay.Bytes
import Relay.Instant.Reading
import Relay.Text.Utf8

/-!
# The wire format

Numbers have fixed width, the least significant byte first. Texts, byte strings and lists are
preceded by their length in eight bytes, an option by one byte, and the cases of an enumeration
are numbered in four bytes. Readers take fields strictly in order and stop at the first fault.
-/

namespace Relay.Wire

/-- Why bytes cannot be read. -/
inductive Fault where
  /-- A number or an element of a list is cut off. -/
  | endOfInput
  /-- A text is longer than what is left. -/
  | textCutOff
  | badText (fault : Text.Utf8.Fault)
  /-- A case number at or above the number of cases. -/
  | badCase (index count : Nat)
  | badOption (tag : Nat)
  | badDate (fault : Instant.Fault)
  | leftOver
  deriving DecidableEq

def Fault.message : Fault → String
  | .endOfInput => "io error: unexpected end of file"
  | .textCutOff => "io error: "
  | .badText fault => s!"string is not valid utf8: {fault.message}"
  | .badCase index count =>
    s!"invalid value: integer \x60{index}\x60, expected variant index 0 <= i < {count}"
  | .badOption tag => s!"tag for enum is not valid, found {tag}"
  | .badDate fault => fault.message
  | .leftOver => "Slice had bytes remaining after deserialization"

/-! ### Writing -/

def putU32 (n : Nat) : Bytes := littleEndian 4 n

def putU64 (n : Nat) : Bytes := littleEndian 8 n

def putBytes (bs : Bytes) : Bytes := putU64 bs.length ++ bs

def putText (s : String) : Bytes := putBytes (Text.Utf8.ofText s)

def putOption {α : Type} (put : α → Bytes) : Option α → Bytes
  | none => [0]
  | some a => 1 :: put a

def putList {α : Type} (put : α → Bytes) (as : List α) : Bytes :=
  putU64 as.length ++ as.flatMap put

/-! ### Reading -/

/-- A reader takes a value off the front of a byte string. -/
abbrev Reader := StateT Bytes (Except Fault)

def take (n : Nat) : Reader Bytes := fun bs =>
  match takeExactly? n bs with
  | some r => .ok r
  | none => .error .endOfInput

def getNumber (width : Nat) : Reader Nat := do return ofLittleEndian (← take width)

def getBytes : Reader Bytes := do take (← getNumber 8)

def getText : Reader String := do
  let n ← getNumber 8
  match takeExactly? n (← get) with
  | none => throw .textCutOff
  | some (bs, rest) =>
    match Text.Utf8.toText bs with
    | .error fault => throw (.badText fault)
    | .ok s => set rest; return s

/-- The number of one of `count` cases. -/
def getCase (count : Nat) : Reader Nat := do
  let index ← getNumber 4
  if count ≤ index then throw (.badCase index count)
  return index

def getOption {α : Type} (value : Reader α) : Reader (Option α) := do
  match ← getNumber 1 with
  | 0 => return none
  | 1 => return some (← value)
  | tag => throw (.badOption tag)

def getItems {α : Type} (value : Reader α) : Nat → Reader (List α)
  | 0 => return []
  | n + 1 => do
    let a ← value
    let as ← getItems value n
    return a :: as

def getList {α : Type} (value : Reader α) : Reader (List α) := do getItems value (← getNumber 8)

def getDate : Reader Instant := do
  match Instant.read (← getText) with
  | .ok t => return t
  | .error fault => throw (.badDate fault)

/-- Reads all of a byte string as one value. -/
def decode {α : Type} (value : Reader α) (bs : Bytes) : Except Fault α :=
  match value.run bs with
  | .error fault => .error fault
  | .ok (a, rest) => if rest.isEmpty then .ok a else .error .leftOver

end Relay.Wire
