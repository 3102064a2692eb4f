import Relay.Proofs.Frame.Language

/-!
# Frames out of a stream

A stream is pushed into a buffer in pieces of any size, and frames are asked for at any time
between. What went in is at any time the frames that came out and what is still held
(`Session.Balanced`), so what comes out depends on the bytes alone and not on the pieces
(`frames_in_any_pieces`). A byte string that is pushed as one piece has given its frames after half
as many calls as it has bytes, and they are what `Frame.decode` makes of it
(`decode_accepts_frames`).
-/

namespace Relay

open Relay.Frame (Written Cut announced)

namespace FrameBuffer

variable {r r' : FrameBuffer} {p : Bytes}

/-! ### One call -/

theorem next_eq_some_iff :
    r.next = (some p, r') ↔ p.length ≤ Frame.maxPayload ∧ r.buffer = Frame.of p ++ r'.buffer := by
  rw [← Frame.split?_eq_some_iff, next]
  cases Frame.split? r.buffer with
  | none => simp
  | some found =>
    obtain ⟨payload, rest⟩ := found
    cases r'
    simp

theorem next_cases (r : FrameBuffer) :
    r.next = (none, r) ∧ r.buffer.length < announced r.buffer ∨
      ∃ p r', r.next = (some p, r') ∧ p.length ≤ Frame.maxPayload ∧
        r.buffer = Frame.of p ++ r'.buffer := by
  rw [← Frame.split?_eq_none_iff]
  cases found : r.next with
  | mk frame r' =>
    cases frame with
    | some p => exact .inr ⟨p, r', rfl, next_eq_some_iff.1 found⟩
    | none =>
      unfold next at found
      split at found
      · cases found
      · next none =>
        cases found
        exact .inl ⟨rfl, none⟩

theorem finish_eq (r : FrameBuffer) :
    r.finish = if r.buffer = [] then .ok ()
      else .error (.truncated (announced r.buffer) r.buffer.length) := by
  rw [finish, Frame.needed_eq]
  cases r.buffer <;> rfl

theorem finish_eq_ok_iff : r.finish = .ok () ↔ r.buffer = [] := by
  rw [finish_eq]
  split <;> simp_all

/-! ### Calls in any order -/

inductive Call where
  | push (piece : Bytes)
  | next

/-- A buffer, with all that was pushed into it and all frames that came out. -/
structure Session where
  buffer : FrameBuffer := {}
  pushed : Bytes := []
  popped : List Bytes := []

namespace Session

def step (s : Session) : Call → Session
  | .push piece => { s with buffer := s.buffer.push piece, pushed := s.pushed ++ piece }
  | .next =>
    let (frame, buffer) := s.buffer.next
    { s with buffer, popped := s.popped ++ frame.toList }

def run (s : Session) (calls : List Call) : Session := calls.foldl step s

/-- The last call for a frame found none. -/
def IsDry (s : Session) : Prop := s.buffer.next.1 = none

/-- What went in is the frames that came out, and what is still held. -/
def Balanced (s : Session) : Prop :=
  ∃ front, Written s.popped front ∧ s.pushed = front ++ s.buffer.buffer

variable {s : Session} {whole : List Bytes} {rest : Bytes}

theorem balanced_start : Balanced {} := ⟨[], Frame.written_nil, rfl⟩

theorem isDry_iff : s.IsDry ↔ s.buffer.buffer.length < announced s.buffer.buffer := by
  obtain ⟨next, short⟩ | ⟨p, r', next, fits, held⟩ := s.buffer.next_cases
  · simp [IsDry, next, short]
  · rw [← Frame.split?_eq_none_iff, Frame.split?_eq_some_iff.2 ⟨fits, held⟩]
    simp [IsDry, next]

theorem step_next_of_isDry (dry : s.IsDry) : s.step .next = s := by
  obtain ⟨next, -⟩ | ⟨p, r', next, -⟩ := s.buffer.next_cases
  · simp [step, next]
  · simp [IsDry, next] at dry

theorem run_next_of_isDry (dry : s.IsDry) (n : Nat) : s.run (.replicate n .next) = s := by
  induction n with
  | zero => rfl
  | succ n ih =>
    change (s.step .next).run (.replicate n .next) = s
    rw [step_next_of_isDry dry, ih]

theorem balanced_step (h : s.Balanced) (call : Call) : (s.step call).Balanced := by
  obtain ⟨front, written, bytes⟩ := h
  cases call with
  | push piece => exact ⟨front, written, by simp [step, push, bytes]⟩
  | next =>
    obtain ⟨next, -⟩ | ⟨p, r', next, fits, held⟩ := s.buffer.next_cases
    · exact ⟨front, by simpa [step, next] using written, by simp [step, next, bytes]⟩
    · refine ⟨front ++ Frame.of p, ?_, ?_⟩
      · simpa [step, next] using written.snoc fits
      · simp [step, next, bytes, held]

theorem balanced_run (h : s.Balanced) (calls : List Call) : (s.run calls).Balanced := by
  induction calls generalizing s with
  | nil => exact h
  | cons call calls ih => exact ih (balanced_step h call)

/-! ### What has come out -/

/-- The frames that have come out are the first of all that went in, and the others are held. -/
theorem Balanced.behind (h : s.Balanced) (cut : Cut s.pushed whole rest) :
    ∃ more, whole = s.popped ++ more ∧ Cut s.buffer.buffer more rest := by
  obtain ⟨front, written, bytes⟩ := h
  exact cut.behind written bytes

theorem Balanced.of_isDry (h : s.Balanced) (cut : Cut s.pushed whole rest) (dry : s.IsDry) :
    s.popped = whole ∧ s.buffer.buffer = rest := by
  obtain ⟨more, rfl, held⟩ := h.behind cut
  obtain ⟨rfl, same⟩ := held.unique (.of_short (isDry_iff.1 dry))
  exact ⟨(List.append_nil _).symm, same.symm⟩

theorem Balanced.isDry_iff (h : s.Balanced) (cut : Cut s.pushed whole rest) :
    s.IsDry ↔ s.popped = whole := by
  refine ⟨fun dry => (h.of_isDry cut dry).1, fun all => ?_⟩
  obtain ⟨more, rfl, held⟩ := h.behind cut
  obtain rfl : more = [] := by simpa using all
  exact Session.isDry_iff.2 held.short_of_nil

theorem Balanced.finish_iff (h : s.Balanced) :
    s.buffer.finish = .ok () ↔ Written s.popped s.pushed := by
  obtain ⟨front, written, bytes⟩ := h
  rw [finish_eq_ok_iff, bytes]
  constructor
  · intro empty
    rwa [empty, List.append_nil]
  · intro all
    have whole := (Frame.written_iff.1 all).2
    rw [← (Frame.written_iff.1 written).2] at whole
    simpa using whole

/-- Half as many calls as bytes are held take all frames out. -/
theorem isDry_run_next {n : Nat} (enough : s.buffer.buffer.length ≤ 2 * n + 1) :
    (s.run (.replicate n .next)).IsDry := by
  induction n generalizing s with
  | zero =>
    have header := Frame.two_le_announced s.buffer.buffer
    have short : s.buffer.buffer.length < announced s.buffer.buffer := by omega
    exact isDry_iff.2 short
  | succ n ih =>
    change ((s.step .next).run (.replicate n .next)).IsDry
    obtain ⟨-, short⟩ | ⟨p, r', next, -, held⟩ := s.buffer.next_cases
    · have dry : s.IsDry := isDry_iff.2 short
      rw [step_next_of_isDry dry, run_next_of_isDry dry]
      exact dry
    · refine ih ?_
      have size := congrArg List.length held
      rw [List.length_append, Frame.length_of] at size
      simp only [step, next]
      omega

theorem pushed_run_next (n : Nat) : (s.run (.replicate n .next)).pushed = s.pushed := by
  induction n generalizing s with
  | zero => rfl
  | succ n ih => exact ih

end Session

/-- Whatever the pieces and whenever frames were asked for: those that came out are the first of
all complete frames of what went in, none is found only if all are out, and the stream may end
exactly if nothing else went in. A stream that was made of frames gives all of them. -/
theorem frames_in_any_pieces (calls : List Call) :
    let s := ({} : Session).run calls
    ∃ whole rest, Cut s.pushed whole rest ∧
      (∀ found front tail, Written found front → s.pushed = front ++ tail → found <+: whole) ∧
      s.popped <+: whole ∧
      (s.buffer.next.1 = none ↔ s.popped = whole) ∧
      (s.buffer.finish = .ok () ↔ Written s.popped s.pushed) ∧
      ∀ payloads, Written payloads s.pushed →
        (∃ n, (s.run (.replicate n .next)).buffer.next.1 = none) ∧
        ∀ n, (s.run (.replicate n .next)).buffer.next.1 = none →
          (s.run (.replicate n .next)).popped = payloads := by
  intro s
  have balanced : s.Balanced := Session.balanced_run Session.balanced_start calls
  obtain ⟨whole, rest, cut⟩ := Frame.exists_cut s.pushed
  refine ⟨whole, rest, cut, fun found front tail written => cut.longest written, ?_,
    balanced.isDry_iff cut, balanced.finish_iff, ?_⟩
  · obtain ⟨more, all, -⟩ := balanced.behind cut
    exact ⟨more, all.symm⟩
  · intro payloads written
    refine ⟨⟨s.buffer.buffer.length, Session.isDry_run_next (by omega)⟩, fun n dry => ?_⟩
    have later : (s.run (.replicate n .next)).Balanced := Session.balanced_run balanced _
    have cut : Frame.Cut (s.run (.replicate n .next)).pushed payloads [] := by
      rw [Session.pushed_run_next]
      exact Frame.cut_nil_iff.2 written
    exact (later.isDry_iff cut).1 dry

end FrameBuffer

namespace Frame

open FrameBuffer (Session)

/-- Decoding gives the payloads of a byte string that is made of frames, which are no others. It
fails on all other byte strings, with what is missing behind their frames. No more calls for a
frame are made than half the bytes, also when frames are empty. -/
theorem decode_accepts_frames (bs : Bytes) :
    (∀ payloads, decode bs = .ok payloads ↔
      (∀ p ∈ payloads, p.length ≤ 65535) ∧ Written payloads bs) ∧
    (∀ payloads payloads', Written payloads bs → Written payloads' bs → payloads = payloads') ∧
    (∀ fault, decode bs = .error fault ↔
      ∃ payloads front rest, Written payloads front ∧ bs = front ++ rest ∧ rest ≠ [] ∧
        rest.length < announced rest ∧ fault = .truncated (announced rest) rest.length) ∧
    let s := ({} : Session).run (.push bs :: .replicate (bs.length / 2) .next)
    s.buffer.next.1 = none ∧ decode bs = s.buffer.finish.map fun _ => s.popped := by
  refine ⟨fun payloads => ?_, fun _ _ => Written.unique, fun fault => ?_, ?_⟩
  · rw [decode_eq_ok_iff]
    exact ⟨fun written => ⟨(written_iff.1 written).1, written⟩, And.right⟩
  · rw [decode_eq_error_iff]
    constructor
    · rintro ⟨payloads, rest, ⟨⟨front, written, split⟩, short⟩, some, failed⟩
      exact ⟨payloads, front, rest, written, split, some, short, failed⟩
    · rintro ⟨payloads, front, rest, written, split, some, short, failed⟩
      exact ⟨payloads, rest, ⟨⟨front, written, split⟩, short⟩, some, failed⟩
  · intro s
    have balanced : s.Balanced := Session.balanced_run Session.balanced_start _
    have dry : s.IsDry := by
      refine Session.isDry_run_next (s := ({} : Session).step (.push bs)) ?_
      change bs.length ≤ _
      omega
    have pushed : s.pushed = bs := Session.pushed_run_next _
    obtain ⟨whole, rest, cut⟩ := exists_cut bs
    obtain ⟨popped, held⟩ := balanced.of_isDry (pushed ▸ cut) dry
    refine ⟨dry, ?_⟩
    rw [decode_of_cut cut, FrameBuffer.finish_eq, popped, held]
    split <;> rfl

end Frame

end Relay
