import Relay.Proofs.Text.Utf8
import Relay.Wire.Basic

/-!
# Readers and writers

`Reads value put fits` says that a reader takes off the front of a byte string exactly what a
writer puts there for a value that fits. It holds of every part of the wire format but dates,
and of a record if it holds of its fields. A value then has one written form, and no written
form begins another: `decode_append_error`.
-/

namespace Relay.Wire

variable {α β : Type}

/-! ### Readers in sequence -/

theorem bind_eq_ok_iff {value : Reader α} {next : α → Reader β} {bs rest : Bytes} {b : β} :
    (value >>= next) bs = .ok (b, rest) ↔
      ∃ a mid, value bs = .ok (a, mid) ∧ next a mid = .ok (b, rest) := by
  simp only [bind, StateT.bind, Except.bind]
  cases value bs with
  | error fault =>
    constructor
    · intro h; cases h
    · rintro ⟨_, _, h, _⟩; cases h
  | ok r =>
    constructor
    · intro h; exact ⟨r.1, r.2, rfl, h⟩
    · rintro ⟨_, _, ⟨⟩, h⟩; exact h

theorem pure_eq_ok_iff {a b : α} {bs rest : Bytes} :
    (pure a : Reader α) bs = .ok (b, rest) ↔ b = a ∧ rest = bs := by
  constructor
  · intro h; cases h; exact ⟨rfl, rfl⟩
  · rintro ⟨rfl, rfl⟩; rfl

/-! ### What is put is what is read -/

def Reads (value : Reader α) (put : α → Bytes) (fits : α → Prop) : Prop :=
  ∀ bs a rest, value bs = .ok (a, rest) ↔ fits a ∧ bs = put a ++ rest

theorem reads_take (n : Nat) : Reads (take n) id (·.length = n) := by
  intro bs a rest
  unfold take
  constructor
  · intro h
    split at h
    · next h' =>
      cases h
      obtain ⟨rfl, hl⟩ := takeExactly?_eq_some_iff.1 h'
      exact ⟨hl, rfl⟩
    · cases h
  · rintro ⟨hl, rfl⟩
    rw [id, takeExactly?_eq_some_iff.2 ⟨rfl, hl⟩]

theorem reads_getNumber (width : Nat) :
    Reads (getNumber width) (littleEndian width) (· < 256 ^ width) := by
  intro bs n rest
  simp only [getNumber, bind_eq_ok_iff, reads_take width _ _ _, pure_eq_ok_iff]
  constructor
  · rintro ⟨taken, mid, ⟨hl, rfl⟩, rfl, rfl⟩
    subst hl
    exact ⟨ofLittleEndian_lt taken, by rw [littleEndian_ofLittleEndian]; rfl⟩
  · rintro ⟨hn, rfl⟩
    exact ⟨_, _, ⟨length_littleEndian width n, rfl⟩,
      (ofLittleEndian_littleEndian width n hn).symm, rfl⟩

theorem reads_length : Reads (getNumber 8) putU64 (· < 2 ^ 64) := reads_getNumber 8

theorem reads_getBytes : Reads getBytes putBytes (·.length < 2 ^ 64) := by
  intro bs a rest
  simp only [getBytes, bind_eq_ok_iff, reads_length _ _ _]
  constructor
  · rintro ⟨n, mid, ⟨hn, rfl⟩, h⟩
    obtain ⟨rfl, rfl⟩ := (reads_take n _ _ _).1 h
    exact ⟨hn, by rw [putBytes, List.append_assoc]; rfl⟩
  · rintro ⟨ha, rfl⟩
    exact ⟨a.length, a ++ rest, ⟨ha, List.append_assoc _ _ _⟩, (reads_take _ _ _ _).2 ⟨rfl, rfl⟩⟩

/-- A text that fits has fewer than 2^64 bytes. -/
def TextFits (s : String) : Prop := (Text.Utf8.ofText s).length < 2 ^ 64

theorem reads_getText : Reads getText putText TextFits := by
  intro bs s rest
  simp only [getText, bind_eq_ok_iff, reads_length _ _ _]
  constructor
  · rintro ⟨n, mid, ⟨hn, rfl⟩, held, mid', hget, h⟩
    cases hget
    cases ht : takeExactly? n mid with
    | none => rw [ht] at h; cases h
    | some r =>
      obtain ⟨taken, rest'⟩ := r
      obtain ⟨rfl, rfl⟩ := takeExactly?_eq_some_iff.1 ht
      rw [ht] at h
      cases hs : Text.Utf8.toText taken with
      | error fault => simp only [hs] at h; cases h
      | ok s' =>
        simp only [hs] at h
        cases h
        rw [Text.Utf8.toText_eq_ok_iff] at hs
        subst hs
        exact ⟨hn, by rw [putText, putBytes, List.append_assoc]⟩
  · rintro ⟨hs, rfl⟩
    refine ⟨_, Text.Utf8.ofText s ++ rest, ⟨hs, List.append_assoc _ _ _⟩, _, _, rfl, ?_⟩
    rw [takeExactly?_eq_some_iff.2 ⟨rfl, rfl⟩]
    simp only [Text.Utf8.toText_eq_ok_iff.2 rfl]
    rfl

theorem reads_getCase (count : Nat) (few : count ≤ 2 ^ 32) :
    Reads (getCase count) putU32 (· < count) := by
  intro bs index rest
  simp only [getCase, bind_eq_ok_iff, reads_getNumber 4 _ _ _]
  constructor
  · rintro ⟨n, mid, ⟨hn, rfl⟩, h⟩
    by_cases outside : count ≤ n
    · rw [if_pos outside] at h
      cases h
    · rw [if_neg outside] at h
      obtain ⟨rfl, rfl⟩ := pure_eq_ok_iff.1 h
      exact ⟨Nat.lt_of_not_le outside, rfl⟩
  · rintro ⟨below, rfl⟩
    refine ⟨index, rest, ⟨Nat.lt_of_lt_of_le below few, rfl⟩, ?_⟩
    rw [if_neg (Nat.not_le_of_lt below)]
    rfl

/-! ### Options and lists -/

theorem reads_getOption {value : Reader α} {put : α → Bytes} {fits : α → Prop}
    (h : Reads value put fits) :
    Reads (getOption value) (putOption put) (∀ a ∈ ·, fits a) := by
  intro bs o rest
  simp only [getOption, bind_eq_ok_iff, reads_getNumber 1 _ _ _]
  constructor
  · rintro ⟨tag, mid, ⟨-, rfl⟩, hr⟩
    split at hr
    · obtain ⟨rfl, rfl⟩ := pure_eq_ok_iff.1 hr
      exact ⟨by simp, rfl⟩
    · obtain ⟨a, mid', ha, hr⟩ := bind_eq_ok_iff.1 hr
      obtain ⟨rfl, rfl⟩ := pure_eq_ok_iff.1 hr
      obtain ⟨hf, rfl⟩ := (h _ _ _).1 ha
      exact ⟨by simpa using hf, rfl⟩
    · cases hr
  · rintro ⟨hf, rfl⟩
    cases o with
    | none => exact ⟨0, rest, ⟨by decide, rfl⟩, rfl⟩
    | some a =>
      refine ⟨1, put a ++ rest, ⟨by decide, rfl⟩, ?_⟩
      exact bind_eq_ok_iff.2 ⟨a, rest, (h _ _ _).2 ⟨hf a rfl, rfl⟩, rfl⟩

theorem reads_getItems {value : Reader α} {put : α → Bytes} {fits : α → Prop}
    (h : Reads value put fits) (n : Nat) :
    Reads (getItems value n) (·.flatMap put) fun as => as.length = n ∧ ∀ a ∈ as, fits a := by
  induction n with
  | zero =>
    intro bs as rest
    rw [getItems, pure_eq_ok_iff]
    constructor
    · rintro ⟨rfl, rfl⟩
      exact ⟨⟨rfl, by simp⟩, rfl⟩
    · rintro ⟨⟨hl, -⟩, rfl⟩
      rw [List.length_eq_zero_iff] at hl
      subst hl
      exact ⟨rfl, rfl⟩
  | succ n ih =>
    intro bs as rest
    simp only [getItems, bind_eq_ok_iff, h _ _ _, ih _ _ _, pure_eq_ok_iff]
    constructor
    · rintro ⟨a, mid, ⟨ha, rfl⟩, as', mid', ⟨⟨hl, has⟩, rfl⟩, rfl, rfl⟩
      refine ⟨⟨by simp [hl], ?_⟩, by simp⟩
      simpa using ⟨ha, has⟩
    · rintro ⟨⟨hl, has⟩, rfl⟩
      cases as with
      | nil => cases hl
      | cons a as =>
        simp only [List.mem_cons, forall_eq_or_imp] at has
        exact ⟨a, as.flatMap put ++ rest, ⟨has.1, by simp⟩, as, rest,
          ⟨⟨by simpa using hl, has.2⟩, rfl⟩, rfl, rfl⟩

theorem reads_getList {value : Reader α} {put : α → Bytes} {fits : α → Prop}
    (h : Reads value put fits) :
    Reads (getList value) (putList put) fun as => as.length < 2 ^ 64 ∧ ∀ a ∈ as, fits a := by
  intro bs as rest
  simp only [getList, bind_eq_ok_iff, reads_length _ _ _, reads_getItems h _ _ _ _]
  constructor
  · rintro ⟨n, mid, ⟨hn, rfl⟩, ⟨rfl, has⟩, rfl⟩
    exact ⟨⟨hn, has⟩, by rw [putList, List.append_assoc]⟩
  · rintro ⟨⟨hn, has⟩, rfl⟩
    exact ⟨as.length, as.flatMap put ++ rest, ⟨hn, by rw [putList, List.append_assoc]⟩,
      ⟨rfl, has⟩, rfl⟩

/-! ### Whole byte strings -/

theorem decode_eq_ok_iff_run {value : Reader α} {bs : Bytes} {a : α} :
    decode value bs = .ok a ↔ value bs = .ok (a, []) := by
  unfold decode StateT.run
  cases value bs with
  | error fault => simp
  | ok r =>
    obtain ⟨a', rest⟩ := r
    cases rest <;> simp

theorem decode_eq_ok_iff {value : Reader α} {put : α → Bytes} {fits : α → Prop}
    (h : Reads value put fits) {bs : Bytes} {a : α} :
    decode value bs = .ok a ↔ fits a ∧ bs = put a := by
  rw [decode_eq_ok_iff_run, h, List.append_nil]

theorem decode_append_error {value : Reader α} {put : α → Bytes} {fits : α → Prop}
    (h : Reads value put fits) {bs more : Bytes} {a : α} (accepted : decode value bs = .ok a)
    (some : more ≠ []) : ∃ fault, decode value (bs ++ more) = .error fault := by
  cases longer : decode value (bs ++ more) with
  | error fault => exact ⟨fault, rfl⟩
  | ok a' =>
    obtain ⟨hf, rfl⟩ := (decode_eq_ok_iff h).1 accepted
    rw [decode_eq_ok_iff_run, (h _ _ _).2 ⟨hf, rfl⟩] at longer
    cases longer
    exact absurd rfl some

/-- A value that is cut short is refused. -/
theorem decode_prefix_error {value : Reader α} {put : α → Bytes} {fits : α → Prop}
    (h : Reads value put fits) {bs more : Bytes} {a : α}
    (accepted : decode value (bs ++ more) = .ok a) (some : more ≠ []) :
    ∃ fault, decode value bs = .error fault := by
  cases shorter : decode value bs with
  | error fault => exact ⟨fault, rfl⟩
  | ok a' =>
    obtain ⟨fault, h'⟩ := decode_append_error h shorter some
    rw [h'] at accepted
    cases accepted

end Relay.Wire
