import Relay.Blake3
import Relay.Text.Blank
import Relay.Text.Hex
import Relay.Text.Quoted
import Relay.Text.Utf8

/-!
# Content ids

An object is named by a codec, which says how its bytes are to be read, and the BLAKE3 hash of
the bytes. The text of an id is the codec byte and the hash in hexadecimal.
-/

namespace Relay

/-- How the bytes of an object are read. -/
inductive Codec where
  | raw
  | node
  deriving DecidableEq, Repr

namespace Codec

def byte : Codec → UInt8
  | raw => 0x55
  | node => 0x70

def ofByte? (b : UInt8) : Option Codec :=
  if b = 0x55 then some raw else if b = 0x70 then some node else none

theorem ofByte?_eq_some_iff (b : UInt8) (c : Codec) : ofByte? b = some c ↔ b = c.byte := by
  unfold ofByte?
  cases c <;> simp only [byte] <;> split
  · simp_all
  · split <;> simp_all
  · simp_all
  · split <;> simp_all

end Codec

/-- A hash of 32 bytes. -/
structure Digest where
  bytes : Bytes
  size : bytes.length = 32
  deriving DecidableEq

namespace Digest

def of (bs : Bytes) : Digest := ⟨Blake3.hash bs, Blake3.length_hash bs⟩

def ofBytes? (bs : Bytes) : Option Digest :=
  if h : bs.length = 32 then some ⟨bs, h⟩ else none

end Digest

structure ContentId where
  codec : Codec
  digest : Digest
  deriving DecidableEq

namespace ContentId

/-- The id of an object with the given bytes. -/
def of (codec : Codec) (bs : Bytes) : ContentId := ⟨codec, .of bs⟩

def bytes (id : ContentId) : Bytes := id.codec.byte :: id.digest.bytes

def chars (id : ContentId) : List Char := Text.Hex.encode id.bytes

def text (id : ContentId) : String := String.ofList id.chars

/-- The first eight digits of the hash. -/
def short (id : ContentId) : String := String.ofList ((id.chars.drop 2).take 8)

/-- Why a text is no content id. -/
inductive Fault where
  | notHex (text : String) (fault : Text.Hex.Fault)
  | badLength (length : Nat)
  | unknownCodec (byte : UInt8)

def Fault.message : Fault → String
  | .notHex text .oddLength => s!"{text}: Odd number of digits"
  | .notHex text (.badDigit byte position) =>
    let shown := Text.Quoted.char (Char.ofNat byte.toNat)
    s!"{text}: Invalid character {shown} at position {position}"
  | .badLength length => s!"expected 33 bytes, got {length}"
  | .unknownCodec byte =>
    let shown := String.ofList (Text.Hex.encode [byte])
    s!"unknown codec 0x{shown}"

/-- Reads a codec byte and a hash. -/
def ofBytes (bs : Bytes) : Except Fault ContentId :=
  match bs with
  | [] => .error (.badLength 0)
  | b :: rest =>
    match Digest.ofBytes? rest with
    | none => .error (.badLength bs.length)
    | some digest =>
      match Codec.ofByte? b with
      | none => .error (.unknownCodec b)
      | some codec => .ok ⟨codec, digest⟩

/-- Reads the text of an id. White space around it is passed over, digits may be of either
case. -/
def parse (s : String) : Except Fault ContentId :=
  match Text.Hex.decode (Text.Utf8.encode (Text.trim s.toList)) with
  | .error fault => .error (.notHex s fault)
  | .ok bs => ofBytes bs

end ContentId

end Relay
