import Relay.Bytes

/-!
# UTF-8

Characters are read a byte at a time. `feed` is one step: it finishes a character, asks for
more, or finds a fault. `decode` stops at the first fault and says where it is; `decodeLossy`
puts U+FFFD in the place of each longest run of bytes that begins a character and cannot be
finished.
-/

namespace Relay.Text.Utf8

/-- The bytes of a character. -/
def encodeChar (c : Char) : Bytes :=
  let n := c.toNat
  if n < 0x80 then [UInt8.ofNat n]
  else if n < 0x800 then [UInt8.ofNat (0xc0 + n / 64), UInt8.ofNat (0x80 + n % 64)]
  else if n < 0x10000 then
    [UInt8.ofNat (0xe0 + n / 4096), UInt8.ofNat (0x80 + n / 64 % 64), UInt8.ofNat (0x80 + n % 64)]
  else
    [UInt8.ofNat (0xf0 + n / 262144), UInt8.ofNat (0x80 + n / 4096 % 64),
      UInt8.ofNat (0x80 + n / 64 % 64), UInt8.ofNat (0x80 + n % 64)]

def encode (cs : List Char) : Bytes := cs.flatMap encodeChar

/-- A character of which `seen` bytes are read and `need` are to come. The next one lies
between `low` and `high`. -/
structure Unfinished where
  value : Nat
  seen : Nat
  need : Nat
  low : Nat := 0x80
  high : Nat := 0xbf

/-- The outcome of reading one byte. `finished` and `fault` say how many bytes they span. -/
inductive Fed where
  | finished (c : Char) (length : Nat)
  | more (u : Unfinished)
  | fault (length : Nat)

/-- Reads the first byte of a character. -/
def first (b : Nat) : Fed :=
  if b < 0x80 then .finished (Char.ofNat b) 1
  else if b < 0xc2 then .fault 1
  else if b < 0xe0 then .more { value := b - 0xc0, seen := 1, need := 1 }
  else if b = 0xe0 then .more { value := 0, seen := 1, need := 2, low := 0xa0 }
  else if b = 0xed then .more { value := 13, seen := 1, need := 2, high := 0x9f }
  else if b < 0xf0 then .more { value := b - 0xe0, seen := 1, need := 2 }
  else if b = 0xf0 then .more { value := 0, seen := 1, need := 3, low := 0x90 }
  else if b = 0xf4 then .more { value := 4, seen := 1, need := 3, high := 0x8f }
  else if b < 0xf4 then .more { value := b - 0xf0, seen := 1, need := 3 }
  else .fault 1

/-- Reads a further byte of a character. A fault spans the bytes before this one. -/
def next (u : Unfinished) (b : Nat) : Fed :=
  if u.low ≤ b ∧ b ≤ u.high then
    let value := u.value * 64 + (b - 0x80)
    if u.need ≤ 1 then .finished (Char.ofNat value) (u.seen + 1)
    else .more { value, seen := u.seen + 1, need := u.need - 1 }
  else .fault u.seen

def feed (pending : Option Unfinished) (b : UInt8) : Fed :=
  match pending with
  | none => first b.toNat
  | some u => next u b.toNat

/-- Why bytes are not UTF-8: a sequence that nothing can complete, or one cut off by the end. -/
inductive Fault where
  | invalid (length position : Nat)
  | incomplete (position : Nat)
  deriving DecidableEq

def Fault.message : Fault → String
  | .invalid length position =>
    s!"invalid utf-8 sequence of {length} bytes from index {position}"
  | .incomplete position => s!"incomplete utf-8 byte sequence from index {position}"

/-- Decodes from the character that starts at `position`, those before it in reverse in `acc`. -/
def decodeFrom (acc : List Char) (position : Nat) (pending : Option Unfinished) :
    Bytes → Except Fault (List Char)
  | [] => if pending.isNone then .ok acc.reverse else .error (.incomplete position)
  | b :: rest =>
    match feed pending b with
    | .finished c length => decodeFrom (c :: acc) (position + length) none rest
    | .more u => decodeFrom acc position (some u) rest
    | .fault length => .error (.invalid length position)

def decode (bs : Bytes) : Except Fault (List Char) := decodeFrom [] 0 none bs

/-- A character's first byte, where a fault stands as U+FFFD. -/
def restart (acc : List Char) (b : UInt8) : List Char × Option Unfinished :=
  match first b.toNat with
  | .finished c _ => (c :: acc, none)
  | .more u => (acc, some u)
  | .fault _ => ('\uFFFD' :: acc, none)

/-- A byte that does not go on with the unfinished character starts a new one. -/
def lossyStep (s : List Char × Option Unfinished) (b : UInt8) : List Char × Option Unfinished :=
  match s.2 with
  | none => restart s.1 b
  | some u =>
    match next u b.toNat with
    | .finished c _ => (c :: s.1, none)
    | .more u' => (s.1, some u')
    | .fault _ => restart ('\uFFFD' :: s.1) b

def decodeLossy (bs : Bytes) : List Char :=
  let s := bs.foldl lossyStep ([], none)
  (if s.2.isSome then '\uFFFD' :: s.1 else s.1).reverse

/-- The bytes of a text. -/
def ofText (s : String) : Bytes := encode s.toList

def toText (bs : Bytes) : Except Fault String := (decode bs).map String.ofList

def toTextLossy (bs : Bytes) : String := String.ofList (decodeLossy bs)

end Relay.Text.Utf8
