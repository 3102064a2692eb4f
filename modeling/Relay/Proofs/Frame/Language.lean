import Relay.Proofs.Except
import Relay.Proofs.Frame

/-!
# What is made of frames

`Written payloads bs` says that a byte string is the frames of some payloads. Every byte string
starts with as many frames as can be, in one way only (`exists_cut`, `Cut.longest`); behind them
there is less than a frame, or nothing. `decode` finds them: it gives the payloads if nothing is
left, and the size of what is left if there is something (`decode_of_cut`).
-/

namespace Relay.Frame

/-- The byte string is the frames of the payloads, one behind the other. -/
def Written (payloads : List Bytes) (bs : Bytes) : Prop :=
  ∃ frames, payloads.mapM encode = .ok frames ∧ bs = frames.flatten

/-- The size of the frame that starts here. A header that is cut off tells nothing but its own. -/
def announced : Bytes → Nat
  | low :: high :: _ => 2 + (low.toNat + 256 * high.toNat)
  | _ => 2

/-- A byte string taken apart: frames, and a rest that is less than a frame. -/
structure Cut (bs : Bytes) (payloads : List Bytes) (rest : Bytes) : Prop where
  whole : ∃ front, Written payloads front ∧ bs = front ++ rest
  short : rest.length < announced rest

variable {bs front rest p : Bytes} {payloads : List Bytes}

/-! ### Frames that are written -/

theorem encode_eq_ok_iff {frame : Bytes} :
    encode p = .ok frame ↔ p.length ≤ maxPayload ∧ frame = of p := by
  by_cases fits : p.length ≤ maxPayload
  · rw [encode_of_fits fits]
    simp [fits, eq_comm]
  · have refused : encode p = .error (.tooLarge p.length) := if_neg fits
    rw [refused]
    simp [fits]

theorem written_iff :
    Written payloads bs ↔
      (∀ p ∈ payloads, p.length ≤ maxPayload) ∧ bs = (payloads.map of).flatten := by
  constructor
  · rintro ⟨frames, encoded, rfl⟩
    rw [mapM_eq_ok_iff] at encoded
    induction payloads generalizing frames with
    | nil =>
      rw [List.map_nil, eq_comm, List.map_eq_nil_iff] at encoded
      subst encoded
      exact ⟨fun p mem => (by cases mem), rfl⟩
    | cons p payloads ih =>
      obtain _ | ⟨frame, frames⟩ := frames
      · cases encoded
      rw [List.map_cons, List.map_cons, List.cons.injEq] at encoded
      obtain ⟨fits, rfl⟩ := encode_eq_ok_iff.1 encoded.1
      obtain ⟨small, flat⟩ := ih frames encoded.2
      refine ⟨List.forall_mem_cons.2 ⟨fits, small⟩, ?_⟩
      rw [List.flatten_cons, flat, List.map_cons, List.flatten_cons]
  · rintro ⟨small, rfl⟩
    refine ⟨payloads.map of, mapM_eq_ok_iff.2 ?_, rfl⟩
    rw [List.map_map]
    exact List.map_congr_left fun p mem => encode_of_fits (small p mem)

theorem written_nil : Written [] [] := ⟨[], rfl, rfl⟩

theorem Written.cons (fits : p.length ≤ maxPayload) (h : Written payloads bs) :
    Written (p :: payloads) (of p ++ bs) := by
  obtain ⟨small, rfl⟩ := written_iff.1 h
  exact written_iff.2 ⟨List.forall_mem_cons.2 ⟨fits, small⟩, rfl⟩

theorem Written.snoc (h : Written payloads bs) (fits : p.length ≤ maxPayload) :
    Written (payloads ++ [p]) (bs ++ of p) := by
  obtain ⟨small, rfl⟩ := written_iff.1 h
  refine written_iff.2 ⟨?_, by simp⟩
  intro q mem
  rcases List.mem_append.1 mem with mem | mem
  · exact small q mem
  · rw [List.mem_singleton.1 mem]
    exact fits

theorem Written.of_cons (h : Written (p :: payloads) bs) :
    p.length ≤ maxPayload ∧ ∃ tail, Written payloads tail ∧ bs = of p ++ tail := by
  obtain ⟨small, rfl⟩ := written_iff.1 h
  obtain ⟨fits, small⟩ := List.forall_mem_cons.1 small
  exact ⟨fits, _, written_iff.2 ⟨small, rfl⟩, rfl⟩

/-! ### The first frame -/

theorem needed_eq (bs : Bytes) : needed bs = announced bs := by
  match bs with
  | [] => rfl
  | [_] => rfl
  | low :: high :: rest => simp [needed, announced, ofLittleEndian]

theorem two_le_announced (bs : Bytes) : 2 ≤ announced bs := needed_eq bs ▸ two_le_needed bs

/-- The payload of a frame that is found is what stands behind its header. -/
theorem split?_eq_some_iff :
    split? bs = some (p, rest) ↔ p.length ≤ maxPayload ∧ bs = of p ++ rest := by
  constructor
  · intro found
    obtain ⟨⟨frame, rest'⟩, taken, same⟩ := Option.map_eq_some_iff.1 found
    cases same
    obtain ⟨rfl, size⟩ := takeExactly?_eq_some_iff.1 taken
    -- the frame is there, so its header is
    have header := two_le_needed (frame ++ rest)
    obtain ⟨low, high, payload, rfl⟩ : ∃ low high payload, frame = low :: high :: payload := by
      match frame, size with
      | [], size | [_], size =>
        rw [← size] at header
        simp at header
      | low :: high :: payload, _ => exact ⟨low, high, payload, rfl⟩
    have length : payload.length = low.toNat + 256 * high.toNat := by
      rw [needed_eq] at size
      simp only [announced, List.cons_append, List.length_cons] at size
      omega
    have written : littleEndian 2 payload.length = [low, high] := by
      have := littleEndian_ofLittleEndian [low, high]
      rw [length]
      simpa [ofLittleEndian] using this
    constructor
    · have := low.toNat_lt
      have := high.toNat_lt
      change payload.length ≤ 65535
      omega
    · change _ = of payload ++ rest
      rw [of, written]
      rfl
  · rintro ⟨fits, rfl⟩
    exact split?_of fits rest

theorem split?_eq_none_iff : split? bs = none ↔ bs.length < announced bs := by
  rw [split?, Option.map_eq_none_iff, takeExactly?_eq_none_iff, needed_eq]

/-! ### Taking apart -/

theorem Cut.of_short (short : bs.length < announced bs) : Cut bs [] bs :=
  ⟨⟨[], written_nil, rfl⟩, short⟩

theorem Cut.eq_of_nil (h : Cut bs [] rest) : bs = rest := by
  obtain ⟨⟨_, nothing, rfl⟩, -⟩ := h
  obtain ⟨-, rfl⟩ := written_iff.1 nothing
  rfl

theorem Cut.short_of_nil (h : Cut bs [] rest) : bs.length < announced bs :=
  h.eq_of_nil ▸ h.short

theorem Cut.cons (fits : p.length ≤ maxPayload) (h : Cut bs payloads rest) :
    Cut (of p ++ bs) (p :: payloads) rest := by
  obtain ⟨⟨front, written, rfl⟩, short⟩ := h
  exact ⟨⟨_, written.cons fits, (List.append_assoc _ _ _).symm⟩, short⟩

theorem Cut.of_cons (h : Cut bs (p :: payloads) rest) :
    p.length ≤ maxPayload ∧ ∃ tail, bs = of p ++ tail ∧ Cut tail payloads rest := by
  obtain ⟨⟨front, written, rfl⟩, short⟩ := h
  obtain ⟨fits, tail, written', rfl⟩ := written.of_cons
  exact ⟨fits, _, List.append_assoc _ _ _, ⟨tail, written', rfl⟩, short⟩

theorem exists_cut (bs : Bytes) : ∃ payloads rest, Cut bs payloads rest := by
  induction size : bs.length using Nat.strongRecOn generalizing bs with
  | ind n ih =>
    cases first : split? bs with
    | none => exact ⟨[], bs, .of_short (split?_eq_none_iff.1 first)⟩
    | some found =>
      obtain ⟨p, tail⟩ := found
      obtain ⟨payloads, rest, cut⟩ := ih _ (size ▸ length_split? first) tail rfl
      obtain ⟨fits, rfl⟩ := split?_eq_some_iff.1 first
      exact ⟨p :: payloads, rest, cut.cons fits⟩

/-- What stands behind some frames of a byte string is taken apart as it was with them. -/
theorem Cut.behind {found : List Bytes} {tail : Bytes} (h : Cut bs payloads rest)
    (written : Written found front) (split : bs = front ++ tail) :
    ∃ more, payloads = found ++ more ∧ Cut tail more rest := by
  induction found generalizing bs front payloads with
  | nil =>
    obtain ⟨-, rfl⟩ := written_iff.1 written
    subst split
    exact ⟨payloads, rfl, h⟩
  | cons p found ih =>
    obtain ⟨fits, behind, written', rfl⟩ := written.of_cons
    rw [List.append_assoc] at split
    have first : split? bs = some (p, behind ++ tail) := split?_eq_some_iff.2 ⟨fits, split⟩
    cases payloads with
    | nil =>
      rw [split?_eq_none_iff.2 h.short_of_nil] at first
      cases first
    | cons q payloads =>
      obtain ⟨fits', behind', rfl, cut⟩ := h.of_cons
      rw [split?_of fits' behind'] at first
      cases first
      obtain ⟨more, rfl, cut'⟩ := ih cut written' rfl
      exact ⟨more, rfl, cut'⟩

/-- No more frames can be found than those of the cut. -/
theorem Cut.longest {found : List Bytes} {tail : Bytes} (h : Cut bs payloads rest)
    (written : Written found front) (split : bs = front ++ tail) : found <+: payloads := by
  obtain ⟨more, rfl, -⟩ := h.behind written split
  exact List.prefix_append found more

theorem Cut.unique {payloads' : List Bytes} {rest' : Bytes} (h : Cut bs payloads rest)
    (h' : Cut bs payloads' rest') : payloads = payloads' ∧ rest = rest' := by
  obtain ⟨front, written, split⟩ := h.whole
  obtain ⟨front', written', split'⟩ := h'.whole
  have same : payloads = payloads' :=
    (h'.longest written split).eq_of_length_le (h.longest written' split').length_le
  subst same
  rw [(written_iff.1 written).2] at split
  rw [(written_iff.1 written').2] at split'
  exact ⟨rfl, List.append_cancel_left (split.symm.trans split')⟩

theorem cut_nil_iff : Cut bs payloads [] ↔ Written payloads bs := by
  constructor
  · rintro ⟨⟨front, written, rfl⟩, -⟩
    rwa [List.append_nil]
  · intro written
    exact ⟨⟨bs, written, (List.append_nil bs).symm⟩, by decide⟩

theorem Written.unique {payloads' : List Bytes} (h : Written payloads bs)
    (h' : Written payloads' bs) : payloads = payloads' :=
  ((cut_nil_iff.2 h).unique (cut_nil_iff.2 h')).1

/-! ### Decoding -/

theorem decodeFrom_of_cut (found : List Bytes) (h : Cut bs payloads rest) :
    decodeFrom found bs =
      if rest = [] then .ok (found.reverse ++ payloads)
      else .error (.truncated (announced rest) rest.length) := by
  induction payloads generalizing bs found with
  | nil =>
    obtain rfl := h.eq_of_nil
    by_cases empty : bs = []
    · subst empty
      rw [decodeFrom_nil, if_pos rfl, List.append_nil]
    · have more : bs.isEmpty = false := List.isEmpty_eq_false_iff.2 empty
      have cutOff := split?_eq_none_iff.2 h.short
      rw [decodeFrom, more, if_neg empty]
      simp only [Bool.false_eq_true, if_false]
      split
      · rw [needed_eq]
      · next first =>
        rw [cutOff] at first
        cases first
  | cons p payloads ih =>
    obtain ⟨fits, tail, rfl, cut⟩ := h.of_cons
    rw [decodeFrom_of fits, ih (p :: found) cut]
    simp

theorem decode_of_cut (h : Cut bs payloads rest) :
    decode bs =
      if rest = [] then .ok payloads else .error (.truncated (announced rest) rest.length) :=
  decodeFrom_of_cut [] h

theorem decode_eq_ok_iff : decode bs = .ok payloads ↔ Written payloads bs := by
  constructor
  · intro decoded
    obtain ⟨payloads', rest, cut⟩ := exists_cut bs
    rw [decode_of_cut cut] at decoded
    split at decoded
    · next none =>
      cases decoded
      subst none
      exact cut_nil_iff.1 cut
    · cases decoded
  · intro written
    rw [decode_of_cut (cut_nil_iff.2 written), if_pos rfl]

theorem decode_eq_error_iff {fault : Fault} :
    decode bs = .error fault ↔
      ∃ payloads rest, Cut bs payloads rest ∧ rest ≠ [] ∧
        fault = .truncated (announced rest) rest.length := by
  obtain ⟨payloads, rest, cut⟩ := exists_cut bs
  constructor
  · intro failed
    rw [decode_of_cut cut] at failed
    split at failed
    · cases failed
    · next some =>
      cases failed
      exact ⟨payloads, rest, cut, some, rfl⟩
  · rintro ⟨payloads', rest', cut', some, rfl⟩
    rw [decode_of_cut cut', if_neg some]

end Relay.Frame
