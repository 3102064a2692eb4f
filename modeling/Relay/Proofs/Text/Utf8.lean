import Relay.Text.Utf8

/-!
# UTF-8 has one spelling

Decoding accepts exactly what encoding writes: `decode_eq_ok_iff`. So a text on the wire is
determined by its bytes and determines them.
-/

namespace Relay.Text.Utf8

theorem toNat_ofNat_char {n : Nat} (h : n.isValidChar) : (Char.ofNat n).toNat = n := by
  rw [Char.ofNat, dif_pos h]
  rfl

/-! ### The first byte of a character -/

theorem first_of_ascii {b : Nat} (h : b < 0x80) : first b = .finished (Char.ofNat b) 1 := by
  rw [first, if_pos h]

theorem first_of_two {b : Nat} (low : 0xc2 ≤ b) (high : b < 0xe0) :
    first b = .more { value := b - 0xc0, seen := 1, need := 1 } := by
  rw [first, if_neg (by omega), if_neg (by omega), if_pos high]

/-- Three bytes leave out what two would do for, and the surrogates. -/
theorem first_of_three {b : Nat} (low : 0xe0 ≤ b) (high : b < 0xf0) :
    first b = .more
      { value := b - 0xe0, seen := 1, need := 2
        low := if b = 0xe0 then 0xa0 else 0x80
        high := if b = 0xed then 0x9f else 0xbf } := by
  rw [first, if_neg (by omega), if_neg (by omega), if_neg (by omega)]
  by_cases h₁ : b = 0xe0
  · subst h₁; rfl
  · by_cases h₂ : b = 0xed
    · subst h₂; rfl
    · rw [if_neg h₁, if_neg h₂, if_pos high, if_neg h₁, if_neg h₂]

/-- Four bytes leave out what three would do for, and what lies above U+10FFFF. -/
theorem first_of_four {b : Nat} (low : 0xf0 ≤ b) (high : b < 0xf5) :
    first b = .more
      { value := b - 0xf0, seen := 1, need := 3
        low := if b = 0xf0 then 0x90 else 0x80
        high := if b = 0xf4 then 0x8f else 0xbf } := by
  rw [first, if_neg (by omega), if_neg (by omega), if_neg (by omega), if_neg (by omega),
    if_neg (by omega), if_neg (by omega)]
  by_cases h₁ : b = 0xf0
  · subst h₁; rfl
  · by_cases h₂ : b = 0xf4
    · subst h₂; rfl
    · rw [if_neg h₁, if_neg h₂, if_pos (by omega), if_neg h₁, if_neg h₂]

theorem first_of_none {b : Nat} (h : 0x80 ≤ b ∧ b < 0xc2 ∨ 0xf5 ≤ b) : first b = .fault 1 := by
  unfold first
  rcases h with h | h
  · rw [if_neg (by omega), if_pos h.2]
  · repeat rw [if_neg (by omega)]

/-! ### One character -/

section
variable {acc cs : List Char} {position : Nat} {u : Unfinished} {bs : Bytes}

theorem decodeFrom_more_iff {b : UInt8} (more : first b.toNat = .more u) :
    decodeFrom acc position none (b :: bs) = .ok cs ↔
      decodeFrom acc position (some u) bs = .ok cs := by
  rw [decodeFrom, feed, more]

/-- An unfinished character goes on with a byte of the range that is asked for. -/
theorem decodeFrom_some_iff :
    decodeFrom acc position (some u) bs = .ok cs ↔
      ∃ b rest, bs = b :: rest ∧ (u.low ≤ b.toNat ∧ b.toNat ≤ u.high) ∧
        if u.need ≤ 1 then
          decodeFrom (Char.ofNat (u.value * 64 + (b.toNat - 0x80)) :: acc)
            (position + (u.seen + 1)) none rest = .ok cs
        else
          decodeFrom acc position
            (some { value := u.value * 64 + (b.toNat - 0x80), seen := u.seen + 1,
                    need := u.need - 1 }) rest = .ok cs := by
  cases bs with
  | nil => simp [decodeFrom]
  | cons b rest =>
    by_cases within : u.low ≤ b.toNat ∧ b.toNat ≤ u.high
    · rw [decodeFrom, feed, next, if_pos within]
      dsimp only
      by_cases last : u.need ≤ 1
      · rw [if_pos last]
        constructor
        · intro h; exact ⟨b, rest, rfl, within, by rw [if_pos last]; exact h⟩
        · rintro ⟨_, _, ⟨⟩, _, h⟩; rwa [if_pos last] at h
      · rw [if_neg last]
        constructor
        · intro h; exact ⟨b, rest, rfl, within, by rw [if_neg last]; exact h⟩
        · rintro ⟨_, _, ⟨⟩, _, h⟩; rwa [if_neg last] at h
    · rw [decodeFrom, feed, next, if_neg within]
      constructor
      · intro h; cases h
      · rintro ⟨_, _, ⟨⟩, h, _⟩; exact absurd h within

def IsTail (b : UInt8) : Prop := 0x80 ≤ b.toNat ∧ b.toNat ≤ 0xbf

theorem decodeFrom_two_iff {a : UInt8} (low : 0xc2 ≤ a.toNat) (high : a.toNat < 0xe0) :
    decodeFrom acc position none (a :: bs) = .ok cs ↔
      ∃ b rest, bs = b :: rest ∧ IsTail b ∧
        decodeFrom (Char.ofNat ((a.toNat - 0xc0) * 64 + (b.toNat - 0x80)) :: acc) (position + 2)
          none rest = .ok cs := by
  rw [decodeFrom_more_iff (first_of_two low high), decodeFrom_some_iff]
  rfl

theorem decodeFrom_three_iff {a : UInt8} (low : 0xe0 ≤ a.toNat) (high : a.toNat < 0xf0) :
    decodeFrom acc position none (a :: bs) = .ok cs ↔
      ∃ b c rest, bs = b :: c :: rest ∧
        ((if a.toNat = 0xe0 then 0xa0 else 0x80) ≤ b.toNat ∧
          b.toNat ≤ if a.toNat = 0xed then 0x9f else 0xbf) ∧ IsTail c ∧
        decodeFrom
          (Char.ofNat (((a.toNat - 0xe0) * 64 + (b.toNat - 0x80)) * 64 + (c.toNat - 0x80)) :: acc)
          (position + 3) none rest = .ok cs := by
  rw [decodeFrom_more_iff (first_of_three low high), decodeFrom_some_iff]
  constructor
  · rintro ⟨b, rest, rfl, hb, h⟩
    obtain ⟨c, rest, rfl, hc, h⟩ := decodeFrom_some_iff.1 h
    exact ⟨b, c, rest, rfl, hb, hc, h⟩
  · rintro ⟨b, c, rest, rfl, hb, hc, h⟩
    exact ⟨b, _, rfl, hb, decodeFrom_some_iff.2 ⟨c, rest, rfl, hc, h⟩⟩

theorem decodeFrom_four_iff {a : UInt8} (low : 0xf0 ≤ a.toNat) (high : a.toNat < 0xf5) :
    decodeFrom acc position none (a :: bs) = .ok cs ↔
      ∃ b c d rest, bs = b :: c :: d :: rest ∧
        ((if a.toNat = 0xf0 then 0x90 else 0x80) ≤ b.toNat ∧
          b.toNat ≤ if a.toNat = 0xf4 then 0x8f else 0xbf) ∧ IsTail c ∧ IsTail d ∧
        decodeFrom
          (Char.ofNat ((((a.toNat - 0xf0) * 64 + (b.toNat - 0x80)) * 64 + (c.toNat - 0x80)) * 64 +
            (d.toNat - 0x80)) :: acc)
          (position + 4) none rest = .ok cs := by
  rw [decodeFrom_more_iff (first_of_four low high), decodeFrom_some_iff]
  constructor
  · rintro ⟨b, rest, rfl, hb, h⟩
    obtain ⟨c, rest, rfl, hc, h⟩ := decodeFrom_some_iff.1 h
    obtain ⟨d, rest, rfl, hd, h⟩ := decodeFrom_some_iff.1 h
    exact ⟨b, c, d, rest, rfl, hb, hc, hd, h⟩
  · rintro ⟨b, c, d, rest, rfl, hb, hc, hd, h⟩
    exact ⟨b, _, rfl, hb,
      decodeFrom_some_iff.2 ⟨c, _, rfl, hc, decodeFrom_some_iff.2 ⟨d, rest, rfl, hd, h⟩⟩⟩

end

theorem toNat_byte {n : Nat} (h : n < 256) : (UInt8.ofNat n).toNat = n := by
  rw [UInt8.toNat_ofNat']
  omega

theorem ofNat_eq_of_toNat {n : Nat} {b : UInt8} (h : n = b.toNat) : UInt8.ofNat n = b := by
  rw [h, UInt8.ofNat_toNat]

theorem encodeChar_of_two {c : Char} (low : 0x80 ≤ c.toNat) (high : c.toNat < 0x800) :
    encodeChar c = [UInt8.ofNat (0xc0 + c.toNat / 64), UInt8.ofNat (0x80 + c.toNat % 64)] := by
  rw [encodeChar, if_neg (by omega), if_pos high]

theorem encodeChar_of_three {c : Char} (low : 0x800 ≤ c.toNat) (high : c.toNat < 0x10000) :
    encodeChar c =
      [UInt8.ofNat (0xe0 + c.toNat / 4096), UInt8.ofNat (0x80 + c.toNat / 64 % 64),
        UInt8.ofNat (0x80 + c.toNat % 64)] := by
  rw [encodeChar, if_neg (by omega), if_neg (by omega), if_pos high]

theorem encodeChar_of_four {c : Char} (low : 0x10000 ≤ c.toNat) :
    encodeChar c =
      [UInt8.ofNat (0xf0 + c.toNat / 262144), UInt8.ofNat (0x80 + c.toNat / 4096 % 64),
        UInt8.ofNat (0x80 + c.toNat / 64 % 64), UInt8.ofNat (0x80 + c.toNat % 64)] := by
  rw [encodeChar, if_neg (by omega), if_neg (by omega), if_neg (by omega)]

theorem decodeFrom_encodeChar (acc cs : List Char) (position : Nat) (c : Char) (rest : Bytes)
    (h : ∀ next, decodeFrom (c :: acc) next none rest = .ok cs) :
    decodeFrom acc position none (encodeChar c ++ rest) = .ok cs := by
  have valid : c.toNat.isValidChar := c.valid
  unfold Nat.isValidChar at valid
  have same : ∀ n next, n = c.toNat → decodeFrom (Char.ofNat n :: acc) next none rest = .ok cs :=
    fun n next hn => by rw [hn, Char.ofNat_toNat]; exact h next
  -- one case for each number of bytes that a character is written with
  by_cases one : c.toNat < 0x80
  · have h₁ := toNat_byte (n := c.toNat) (by omega)
    rw [encodeChar, if_pos one, List.singleton_append, decodeFrom, feed, h₁, first_of_ascii one]
    exact same _ _ rfl
  by_cases two : c.toNat < 0x800
  · have h₁ := toNat_byte (n := 0xc0 + c.toNat / 64) (by omega)
    have h₂ := toNat_byte (n := 0x80 + c.toNat % 64) (by omega)
    rw [encodeChar_of_two (by omega) two]
    refine (decodeFrom_two_iff (by omega) (by omega)).2 ⟨_, _, rfl, ?_, same _ _ (by omega)⟩
    unfold IsTail
    omega
  by_cases three : c.toNat < 0x10000
  · have h₁ := toNat_byte (n := 0xe0 + c.toNat / 4096) (by omega)
    have h₂ := toNat_byte (n := 0x80 + c.toNat / 64 % 64) (by omega)
    have h₃ := toNat_byte (n := 0x80 + c.toNat % 64) (by omega)
    rw [encodeChar_of_three (by omega) three]
    refine (decodeFrom_three_iff (by omega) (by omega)).2
      ⟨_, _, _, rfl, ?_, ?_, same _ _ (by omega)⟩
    · rw [h₁, h₂]
      constructor <;> split <;> omega
    · unfold IsTail
      omega
  · have h₁ := toNat_byte (n := 0xf0 + c.toNat / 262144) (by omega)
    have h₂ := toNat_byte (n := 0x80 + c.toNat / 4096 % 64) (by omega)
    have h₃ := toNat_byte (n := 0x80 + c.toNat / 64 % 64) (by omega)
    have h₄ := toNat_byte (n := 0x80 + c.toNat % 64) (by omega)
    rw [encodeChar_of_four (by omega)]
    refine (decodeFrom_four_iff (by omega) (by omega)).2
      ⟨_, _, _, _, rfl, ?_, ?_, ?_, same _ _ (by omega)⟩
    · rw [h₁, h₂]
      constructor <;> split <;> omega
    · unfold IsTail
      omega
    · unfold IsTail
      omega

/-- A character read is a character written. -/
theorem exists_encodeChar_of_decodeFrom {acc cs : List Char} {position : Nat} {a : UInt8}
    {bs : Bytes} (h : decodeFrom acc position none (a :: bs) = .ok cs) :
    ∃ c next rest, a :: bs = encodeChar c ++ rest ∧
      decodeFrom (c :: acc) next none rest = .ok cs := by
  have ha := a.toNat_lt
  -- the first byte says how many there are
  by_cases one : a.toNat < 0x80
  · have value := toNat_ofNat_char (n := a.toNat) (by unfold Nat.isValidChar; omega)
    rw [decodeFrom, feed, first_of_ascii one] at h
    refine ⟨_, _, bs, ?_, h⟩
    rw [encodeChar, value, if_pos one, UInt8.ofNat_toNat, List.singleton_append]
  by_cases none : a.toNat < 0xc2 ∨ 0xf5 ≤ a.toNat
  · rw [decodeFrom, feed, first_of_none (by omega)] at h
    cases h
  by_cases two : a.toNat < 0xe0
  · obtain ⟨b, rest, rfl, ⟨lowb, highb⟩, h⟩ := (decodeFrom_two_iff (by omega) two).1 h
    have value := toNat_ofNat_char (n := (a.toNat - 0xc0) * 64 + (b.toNat - 0x80))
      (by unfold Nat.isValidChar; omega)
    refine ⟨_, _, rest, ?_, h⟩
    rw [encodeChar_of_two (by omega) (by omega), value, ofNat_eq_of_toNat (b := a) (by omega),
      ofNat_eq_of_toNat (b := b) (by omega)]
    rfl
  by_cases three : a.toNat < 0xf0
  · obtain ⟨b, c, rest, rfl, ⟨lowb, highb⟩, ⟨lowc, highc⟩, h⟩ :=
      (decodeFrom_three_iff (by omega) three).1 h
    have value := toNat_ofNat_char
      (n := ((a.toNat - 0xe0) * 64 + (b.toNat - 0x80)) * 64 + (c.toNat - 0x80))
      (by unfold Nat.isValidChar; split at lowb <;> split at highb <;> omega)
    refine ⟨_, _, rest, ?_, h⟩
    rw [encodeChar_of_three (by split at lowb <;> omega) (by split at highb <;> omega), value,
      ofNat_eq_of_toNat (b := a) (by split at highb <;> split at lowb <;> omega),
      ofNat_eq_of_toNat (b := b) (by split at highb <;> split at lowb <;> omega),
      ofNat_eq_of_toNat (b := c) (by omega)]
    rfl
  · obtain ⟨b, c, d, rest, rfl, ⟨lowb, highb⟩, ⟨lowc, highc⟩, ⟨lowd, highd⟩, h⟩ :=
      (decodeFrom_four_iff (by omega) (by omega)).1 h
    have value := toNat_ofNat_char
      (n := (((a.toNat - 0xf0) * 64 + (b.toNat - 0x80)) * 64 + (c.toNat - 0x80)) * 64 +
        (d.toNat - 0x80))
      (by unfold Nat.isValidChar; split at lowb <;> split at highb <;> omega)
    refine ⟨_, _, rest, ?_, h⟩
    rw [encodeChar_of_four (by split at lowb <;> omega), value,
      ofNat_eq_of_toNat (b := a) (by split at highb <;> split at lowb <;> omega),
      ofNat_eq_of_toNat (b := b) (by split at highb <;> split at lowb <;> omega),
      ofNat_eq_of_toNat (b := c) (by omega), ofNat_eq_of_toNat (b := d) (by omega)]
    rfl

/-! ### Texts -/

theorem decodeFrom_encode (acc cs : List Char) (position : Nat) :
    decodeFrom acc position none (encode cs) = .ok (acc.reverse ++ cs) := by
  induction cs generalizing acc position with
  | nil => simp [encode, decodeFrom]
  | cons c cs ih =>
    rw [show encode (c :: cs) = encodeChar c ++ encode cs from List.flatMap_cons]
    refine decodeFrom_encodeChar _ _ _ _ _ fun next => ?_
    rw [ih]
    simp

theorem eq_encode_of_decodeFrom {acc cs : List Char} {position : Nat} {bs : Bytes}
    (h : decodeFrom acc position none bs = .ok cs) :
    ∃ tail, cs = acc.reverse ++ tail ∧ bs = encode tail := by
  cases bs with
  | nil =>
    simp only [decodeFrom, Option.isNone_none, if_true, Except.ok.injEq] at h
    exact ⟨[], by simp [h], rfl⟩
  | cons b bs =>
    obtain ⟨c, next, rest, hb, h⟩ := exists_encodeChar_of_decodeFrom h
    have shorter : rest.length < (b :: bs).length := by
      have : 0 < (encodeChar c).length := by
        unfold encodeChar
        dsimp only
        repeat' split
        all_goals exact Nat.succ_pos _
      rw [hb, List.length_append]
      omega
    obtain ⟨tail, hcs, hrest⟩ := eq_encode_of_decodeFrom h
    refine ⟨c :: tail, by simp [hcs], ?_⟩
    rw [hb, hrest]
    rfl
termination_by bs.length

theorem decode_eq_ok_iff {bs : Bytes} {cs : List Char} : decode bs = .ok cs ↔ bs = encode cs := by
  constructor
  · intro h
    obtain ⟨tail, hcs, hbs⟩ := eq_encode_of_decodeFrom h
    rw [hcs]
    exact hbs
  · rintro rfl
    exact decodeFrom_encode [] cs 0

theorem toText_eq_ok_iff {bs : Bytes} {s : String} : toText bs = .ok s ↔ bs = ofText s := by
  unfold toText ofText
  cases h : decode bs with
  | error fault =>
    constructor
    · intro h'; cases h'
    · intro h'
      rw [← decode_eq_ok_iff, h] at h'
      cases h'
  | ok cs =>
    rw [decode_eq_ok_iff] at h
    constructor
    · rintro ⟨⟩
      rw [String.toList_ofList, h]
    · intro h'
      have := (decode_eq_ok_iff.2 h).symm.trans (decode_eq_ok_iff.2 h')
      cases this
      rw [Except.map, String.ofList_toList]

/-! ### Plain characters -/

/-- Characters of one byte. -/
def IsPlain (c : Char) : Prop := c.toNat < 0x80

def plainByte (c : Char) : UInt8 := UInt8.ofNat c.toNat

theorem toNat_plainByte {c : Char} (plain : IsPlain c) : (plainByte c).toNat = c.toNat :=
  toNat_byte (Nat.lt_trans plain (by decide))

theorem encodeChar_of_isPlain {c : Char} (plain : IsPlain c) : encodeChar c = [plainByte c] :=
  if_pos plain

theorem encode_of_isPlain {cs : List Char} (plain : ∀ c ∈ cs, IsPlain c) :
    encode cs = cs.map plainByte := by
  induction cs with
  | nil => rfl
  | cons c cs ih =>
    rw [List.forall_mem_cons] at plain
    rw [List.map_cons, ← ih plain.2, encode, List.flatMap_cons, encodeChar_of_isPlain plain.1]
    rfl

/-- Other characters begin with a byte that no plain one has. -/
theorem exists_mem_encodeChar {c : Char} (other : ¬IsPlain c) :
    ∃ b ∈ encodeChar c, 0x80 ≤ b.toNat := by
  have valid : c.toNat.isValidChar := c.valid
  unfold Nat.isValidChar at valid
  unfold IsPlain at other
  by_cases two : c.toNat < 0x800
  · rw [encodeChar_of_two (by omega) two]
    exact ⟨_, List.mem_cons_self, by rw [toNat_byte (by omega)]; omega⟩
  by_cases three : c.toNat < 0x10000
  · rw [encodeChar_of_three (by omega) three]
    exact ⟨_, List.mem_cons_self, by rw [toNat_byte (by omega)]; omega⟩
  · rw [encodeChar_of_four (by omega)]
    exact ⟨_, List.mem_cons_self, by rw [toNat_byte (by omega)]; omega⟩

theorem isPlain_of_encode {cs : List Char} (low : ∀ b ∈ encode cs, b.toNat < 0x80) :
    ∀ c ∈ cs, IsPlain c := by
  intro c mem
  refine Classical.byContradiction fun other => ?_
  obtain ⟨b, inside, high⟩ := exists_mem_encodeChar other
  have := low b (List.mem_flatMap.2 ⟨c, mem, inside⟩)
  omega

/-- Plain texts stand in one order, by characters or by bytes. -/
theorem encode_lt_encode_iff {cs ds : List Char} (plain : ∀ c ∈ cs, IsPlain c)
    (plain' : ∀ d ∈ ds, IsPlain d) : encode cs < encode ds ↔ cs < ds := by
  rw [encode_of_isPlain plain, encode_of_isPlain plain']
  induction cs generalizing ds with
  | nil => cases ds <;> simp
  | cons c cs ih =>
    cases ds with
    | nil => simp
    | cons d ds =>
      rw [List.forall_mem_cons] at plain plain'
      rw [List.map_cons, List.map_cons, List.cons_lt_cons_iff, List.cons_lt_cons_iff,
        ih plain.2 plain'.2, UInt8.lt_iff_toNat_lt, ← UInt8.toNat_inj, toNat_plainByte plain.1,
        toNat_plainByte plain'.1, ← Char.toNat_inj]
      exact Iff.rfl

end Relay.Text.Utf8
