import Relay.Bytes

/-!
# Frames

A frame is a length in two bytes, the least significant first, and so many payload bytes. A
`FrameBuffer` takes a stream in pieces and gives back its frames.
-/

namespace Relay

namespace Frame

/-- The longest payload. -/
def maxPayload : Nat := 65535

inductive Fault where
  | tooLarge (size : Nat)
  | truncated (needed available : Nat)
  deriving DecidableEq

def Fault.message : Fault → String
  | .tooLarge size => s!"Frame too large: {size} bytes (max {maxPayload})"
  | .truncated needed available => s!"Truncated frame: need {needed} bytes, have {available}"

def encode (payload : Bytes) : Except Fault Bytes :=
  let size := payload.length
  if size ≤ maxPayload then .ok (littleEndian 2 size ++ payload) else .error (.tooLarge size)

/-- The size of the frame that starts here, as far as its header is known. -/
def needed (bs : Bytes) : Nat :=
  let header := bs.take 2
  if header.length = 2 then 2 + ofLittleEndian header else 2

theorem two_le_needed (bs : Bytes) : 2 ≤ needed bs := by
  unfold needed; dsimp only; split <;> omega

/-- Splits off the payload of a complete frame. -/
def split? (bs : Bytes) : Option (Bytes × Bytes) :=
  (takeExactly? (needed bs) bs).map fun (frame, rest) => (frame.drop 2, rest)

theorem length_split? {bs payload rest : Bytes} (h : split? bs = some (payload, rest)) :
    rest.length < bs.length := by
  obtain ⟨⟨frame, rest'⟩, hf, he⟩ := Option.map_eq_some_iff.1 h
  obtain ⟨hbs, hn⟩ := takeExactly?_eq_some_iff.1 hf
  cases he
  have := two_le_needed bs
  rw [hbs, List.length_append]
  omega

/-- All frames of a byte string, those already found in reverse in `found`. -/
def decodeFrom (found : List Bytes) (bs : Bytes) : Except Fault (List Bytes) :=
  if bs.isEmpty then .ok found.reverse
  else
    match h : split? bs with
    | none => .error (.truncated (needed bs) bs.length)
    | some (payload, rest) =>
      have := length_split? h
      decodeFrom (payload :: found) rest
termination_by bs.length

def decode (bs : Bytes) : Except Fault (List Bytes) := decodeFrom [] bs

end Frame

/-- What has arrived of a stream and is not yet given out. -/
structure FrameBuffer where
  buffer : Bytes := []

namespace FrameBuffer

def push (r : FrameBuffer) (bs : Bytes) : FrameBuffer := ⟨r.buffer ++ bs⟩

/-- Takes the next frame if it is complete. -/
def next (r : FrameBuffer) : Option Bytes × FrameBuffer :=
  match Frame.split? r.buffer with
  | some (payload, rest) => (some payload, ⟨rest⟩)
  | none => (none, r)

/-- The end of the stream: nothing may be left over. -/
def finish (r : FrameBuffer) : Except Frame.Fault Unit :=
  if r.buffer.isEmpty then .ok ()
  else .error (.truncated (Frame.needed r.buffer) r.buffer.length)

end FrameBuffer

end Relay
