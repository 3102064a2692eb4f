/-!
# Byte strings

A byte string is a list of bytes. `littleEndian` and `ofLittleEndian` are the fixed-width
numbers of the wire formats, and `runs` cuts a string into pieces of one length.
-/

-- Powers of numbers are those of the core library, also where a module knows of monoids.
attribute [default_instance high] instPowNat

namespace Relay

instance (priority := high) natPow : Pow Nat Nat := instPowNat

abbrev Bytes := List UInt8

/-- The low `width` bytes of `n`, least significant first. -/
def littleEndian : Nat → Nat → Bytes
  | 0, _ => []
  | width + 1, n => UInt8.ofNat (n % 256) :: littleEndian width (n / 256)

/-- The number whose bytes are given, least significant first. -/
def ofLittleEndian : Bytes → Nat
  | [] => 0
  | b :: rest => b.toNat + 256 * ofLittleEndian rest

@[simp] theorem length_littleEndian (width n : Nat) : (littleEndian width n).length = width := by
  induction width generalizing n with
  | zero => rfl
  | succ width ih => simp [littleEndian, ih]

theorem ofLittleEndian_littleEndian (width n : Nat) (h : n < 256 ^ width) :
    ofLittleEndian (littleEndian width n) = n := by
  induction width generalizing n with
  | zero => simp at h; simp [littleEndian, ofLittleEndian, h]
  | succ width ih =>
    have hq : n / 256 < 256 ^ width := by
      rw [Nat.pow_succ] at h; omega
    simp only [littleEndian, ofLittleEndian, ih _ hq, UInt8.toNat_ofNat']
    omega

theorem ofLittleEndian_lt (bs : Bytes) : ofLittleEndian bs < 256 ^ bs.length := by
  induction bs with
  | nil => simp [ofLittleEndian]
  | cons b rest ih =>
    have := b.toNat_lt
    simp only [ofLittleEndian, List.length_cons, Nat.pow_succ]
    omega

/-- Fixed-width numbers have one written form. -/
theorem littleEndian_ofLittleEndian (bs : Bytes) :
    littleEndian bs.length (ofLittleEndian bs) = bs := by
  induction bs with
  | nil => rfl
  | cons b rest ih =>
    have := b.toNat_lt
    have hq : (b.toNat + 256 * ofLittleEndian rest) / 256 = ofLittleEndian rest := by omega
    have hr : (b.toNat + 256 * ofLittleEndian rest) % 256 = b.toNat := by omega
    simp [littleEndian, ofLittleEndian, hq, hr, ih]

/-- The first `n` bytes and what follows, if there are that many. -/
def takeExactly? (n : Nat) (bs : Bytes) : Option (Bytes × Bytes) :=
  let taken := bs.take n
  if taken.length = n then some (taken, bs.drop n) else none

theorem takeExactly?_eq_some_iff {n : Nat} {bs a rest : Bytes} :
    takeExactly? n bs = some (a, rest) ↔ bs = a ++ rest ∧ a.length = n := by
  unfold takeExactly?
  constructor
  · intro h
    dsimp only at h
    split at h
    · next hl =>
      simp only [Option.some.injEq, Prod.mk.injEq] at h
      obtain ⟨rfl, rfl⟩ := h
      exact ⟨(List.take_append_drop n bs).symm, hl⟩
    · simp at h
  · rintro ⟨rfl, rfl⟩
    simp

theorem takeExactly?_eq_none_iff {n : Nat} {bs : Bytes} :
    takeExactly? n bs = none ↔ bs.length < n := by
  unfold takeExactly?
  simp only [List.length_take]
  split <;> simp <;> omega

/-- Cuts into runs, the current one holding `taken` in reverse with `room` places left. -/
def runsFrom {α : Type} (size room : Nat) (taken : List α) : List α → List (List α)
  | [] => [taken.reverse]
  | a :: rest =>
    match room with
    | 0 => taken.reverse :: runsFrom size (size - 1) [a] rest
    | room + 1 => runsFrom size room (a :: taken) rest

/-- Runs of `size` elements, the last possibly shorter; one empty run for the empty list. -/
def runs {α : Type} (size : Nat) (as : List α) : List (List α) := runsFrom size size [] as

end Relay
