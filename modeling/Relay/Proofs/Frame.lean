import Relay.Frame

/-!
# Frames one behind the other

Payloads that fit are framed, written one behind the other and found again by `Frame.decode`.
-/

namespace Relay.Frame

def of (payload : Bytes) : Bytes := littleEndian 2 payload.length ++ payload

theorem encode_of_fits {payload : Bytes} (h : payload.length ≤ maxPayload) :
    encode payload = .ok (of payload) := if_pos h

theorem length_of (payload : Bytes) : (of payload).length = 2 + payload.length := by
  rw [of, List.length_append, length_littleEndian]

theorem of_ne_nil (payload : Bytes) : of payload ≠ [] := by
  intro h
  have := congrArg List.length h
  rw [length_of, List.length_nil] at this
  omega

theorem needed_of {payload : Bytes} (h : payload.length ≤ maxPayload) (rest : Bytes) :
    needed (of payload ++ rest) = (of payload).length := by
  have header : (of payload ++ rest).take 2 = littleEndian 2 payload.length := by
    rw [of, List.append_assoc, List.take_left' (length_littleEndian 2 _)]
  have small : payload.length < 256 ^ 2 := by
    unfold maxPayload at h
    omega
  unfold needed
  dsimp only
  rw [header, length_littleEndian, if_pos rfl, ofLittleEndian_littleEndian 2 _ small, length_of]

theorem split?_of {payload : Bytes} (h : payload.length ≤ maxPayload) (rest : Bytes) :
    split? (of payload ++ rest) = some (payload, rest) := by
  have found : takeExactly? (needed (of payload ++ rest)) (of payload ++ rest) =
      some (of payload, rest) := takeExactly?_eq_some_iff.2 ⟨rfl, (needed_of h rest).symm⟩
  rw [split?, found, Option.map_some]
  dsimp only
  rw [of, List.drop_left' (length_littleEndian 2 _)]

theorem decodeFrom_nil (found : List Bytes) : decodeFrom found [] = .ok found.reverse := by
  rw [decodeFrom]
  rfl

theorem decodeFrom_of {payload : Bytes} (h : payload.length ≤ maxPayload) (found : List Bytes)
    (rest : Bytes) :
    decodeFrom found (of payload ++ rest) = decodeFrom (payload :: found) rest := by
  have more : (of payload ++ rest).isEmpty = false := by
    rw [List.isEmpty_eq_false_iff]
    exact fun empty => of_ne_nil payload (List.append_eq_nil_iff.1 empty).1
  rw [decodeFrom, more]
  simp only [Bool.false_eq_true, if_false]
  split
  · next none =>
    rw [split?_of h] at none
    cases none
  · next found =>
    rw [split?_of h] at found
    cases found
    rfl

theorem decodeFrom_flatten {payloads : List Bytes} (h : ∀ p ∈ payloads, p.length ≤ maxPayload)
    (found : List Bytes) :
    decodeFrom found (payloads.map of).flatten = .ok (found.reverse ++ payloads) := by
  induction payloads generalizing found with
  | nil =>
    rw [List.append_nil]
    exact decodeFrom_nil found
  | cons p payloads ih =>
    rw [List.map_cons, List.flatten_cons, decodeFrom_of (h p List.mem_cons_self),
      ih fun q hq => h q (List.mem_cons_of_mem _ hq)]
    simp

theorem decode_flatten {payloads : List Bytes} (h : ∀ p ∈ payloads, p.length ≤ maxPayload) :
    decode (payloads.map of).flatten = .ok payloads := decodeFrom_flatten h []

theorem flatten_eq_nil_iff (payloads : List Bytes) :
    (payloads.map of).flatten = [] ↔ payloads = [] := by
  cases payloads with
  | nil => simp
  | cons p payloads => simp [of_ne_nil]

end Relay.Frame
