import Relay.Proofs.Content.Naming
import Relay.Proofs.Text.Utf8

/-!
# Spellings of content ids

A text names an object if, without the white space around it and with its letters lowered, it is
the text of the object's id. Of any other text the first thing is told that is wrong with it.
-/

namespace Relay

namespace Text.Hex

open Utf8 (IsPlain plainByte)

/-! ### Digits -/

def IsDigit (b : UInt8) : Prop := b.toNat ∈ "0123456789abcdefABCDEF".toList.map Char.toNat

instance (b : UInt8) : Decidable (IsDigit b) := inferInstanceAs (Decidable (_ ∈ _))

theorem isDigit_iff {b : UInt8} : IsDigit b ↔ ∃ n, value? b.toNat = some n := by
  have all : ∀ n : Fin 256, n.val ∈ "0123456789abcdefABCDEF".toList.map Char.toNat ↔
      (value? n.val).isSome := by decide +kernel
  rw [← Option.isSome_iff_exists]
  exact all ⟨b.toNat, b.toNat_lt⟩

theorem value?_of_not_isDigit {b : UInt8} (bad : ¬IsDigit b) : value? b.toNat = none := by
  rwa [isDigit_iff, ← Option.isSome_iff_exists, Option.not_isSome_iff_eq_none] at bad

theorem value?_lt {code n : Nat} (h : value? code = some n) : n < 16 ∧ code < 0x80 := by
  unfold value? at h
  split at h
  · cases h
    omega
  · split at h
    · cases h
      omega
    · split at h
      · cases h
        omega
      · cases h

theorem toNat_toLower (c : Char) :
    c.toLower.toNat = if 65 ≤ c.toNat ∧ c.toNat ≤ 90 then c.toNat + 32 else c.toNat := by
  have upper : (c.val ≥ 'A'.val ∧ c.val ≤ 'Z'.val) ↔ 65 ≤ c.toNat ∧ c.toNat ≤ 90 := by
    rw [ge_iff_le, UInt32.le_iff_toNat_le, UInt32.le_iff_toNat_le]
    rfl
  unfold Char.toLower
  split
  · next h =>
    have small := upper.1 h
    rw [if_pos small]
    change (c.val.toNat + 32) % 2 ^ 32 = c.toNat + 32
    exact Nat.mod_eq_of_lt (by change c.toNat + 32 < _; omega)
  · next h => rw [if_neg (mt upper.2 h)]

theorem toNat_digit {n : Nat} (h : n < 16) :
    (digit n).toNat = if n < 10 then 48 + n else 87 + n := by
  have all : ∀ n : Fin 16, (digit n.val).toNat = if n.val < 10 then 48 + n.val else 87 + n.val := by
    decide
  exact all ⟨n, h⟩

/-- A character is read as the digit that it is once it is lowered. -/
theorem value?_eq_some_iff {c : Char} {n : Nat} :
    value? c.toNat = some n ↔ n < 16 ∧ c.toLower = digit n := by
  rw [← Char.toNat_inj, toNat_toLower]
  constructor
  · intro h
    have small := (value?_lt h).1
    refine ⟨small, ?_⟩
    rw [toNat_digit small]
    unfold value? at h
    repeat' split at h
    all_goals try cases h
    all_goals repeat' split
    all_goals omega
  · rintro ⟨small, same⟩
    rw [toNat_digit small] at same
    unfold value?
    repeat' split at same
    all_goals repeat' split
    all_goals first | omega | (rw [Option.some.injEq]; omega)

theorem isPlain_of_toLower {c : Char} {n : Nat} (small : n < 16) (same : c.toLower = digit n) :
    IsPlain c := (value?_lt (value?_eq_some_iff.2 ⟨small, same⟩)).2

/-! ### Pairs of digits -/

theorem encode_cons (b : UInt8) (bs : Bytes) :
    encode (b :: bs) = digit (b.toNat / 16) :: digit (b.toNat % 16) :: encode bs := rfl

theorem length_encode (bs : Bytes) : (encode bs).length = 2 * bs.length := by
  induction bs with
  | nil => rfl
  | cons b bs ih =>
    rw [encode_cons, List.length_cons, List.length_cons, ih, List.length_cons]
    omega

theorem exists_pair {b : UInt8} {bs : Bytes} {cs : List Char}
    (spelled : cs.map Char.toLower = encode (b :: bs)) :
    ∃ c d rest, cs = c :: d :: rest ∧ c.toLower = digit (b.toNat / 16) ∧
      d.toLower = digit (b.toNat % 16) ∧ rest.map Char.toLower = encode bs := by
  rw [encode_cons] at spelled
  obtain ⟨c, cs, rfl, high, spelled⟩ := List.map_eq_cons_iff.1 spelled
  obtain ⟨d, rest, rfl, low, spelled⟩ := List.map_eq_cons_iff.1 spelled
  exact ⟨c, d, rest, rfl, high, low, spelled⟩

theorem isPlain_of_spelled {bs : Bytes} {cs : List Char}
    (spelled : cs.map Char.toLower = encode bs) : ∀ c ∈ cs, IsPlain c := by
  induction bs generalizing cs with
  | nil =>
    rw [show cs = [] from List.map_eq_nil_iff.1 spelled]
    intro c mem
    cases mem
  | cons b bs ih =>
    obtain ⟨c, d, rest, rfl, high, low, spelled⟩ := exists_pair spelled
    have := b.toNat_lt
    rw [List.forall_mem_cons, List.forall_mem_cons]
    exact ⟨isPlain_of_toLower (by omega) high, isPlain_of_toLower (by omega) low, ih spelled⟩

theorem decodeFrom_of_spelled {bs : Bytes} {cs : List Char}
    (spelled : cs.map Char.toLower = encode bs) (acc : Bytes) (position : Nat) :
    decodeFrom acc position (cs.map plainByte) = .ok (acc.reverse ++ bs) := by
  have plain := isPlain_of_spelled spelled
  induction bs generalizing cs acc position with
  | nil =>
    rw [show cs = [] from List.map_eq_nil_iff.1 spelled, List.map_nil, decodeFrom, List.append_nil]
  | cons b bs ih =>
    obtain ⟨c, d, rest, rfl, high, low, spelled⟩ := exists_pair spelled
    rw [List.forall_mem_cons, List.forall_mem_cons] at plain
    obtain ⟨hc, hd, plain⟩ := plain
    have := b.toNat_lt
    have first := value?_eq_some_iff.2 ⟨by omega, high⟩
    have second := value?_eq_some_iff.2 ⟨by omega, low⟩
    have byte : UInt8.ofNat (16 * (b.toNat / 16) + b.toNat % 16) = b := by
      rw [Nat.div_add_mod, UInt8.ofNat_toNat]
    rw [List.map_cons, List.map_cons, decodeFrom, Utf8.toNat_plainByte hc,
      Utf8.toNat_plainByte hd, first, second]
    dsimp only
    rw [byte, ih spelled _ _ plain, List.reverse_cons, List.append_assoc, List.singleton_append]

/-- A text of digit pairs spells bytes. -/
theorem exists_spelled : ∀ {cs : List Char}, cs.length % 2 = 0 → (∀ c ∈ cs, IsPlain c) →
    (∀ b ∈ cs.map plainByte, IsDigit b) → ∃ bs, cs.map Char.toLower = encode bs
  | [], _, _, _ => ⟨[], rfl⟩
  | [_], odd, _, _ => by cases odd
  | c :: d :: cs, even, plain, digits => by
    rw [List.forall_mem_cons, List.forall_mem_cons] at plain
    rw [List.map_cons, List.map_cons, List.forall_mem_cons, List.forall_mem_cons] at digits
    obtain ⟨hc, hd, plain⟩ := plain
    obtain ⟨high, low, digits⟩ := digits
    rw [isDigit_iff, Utf8.toNat_plainByte hc] at high
    rw [isDigit_iff, Utf8.toNat_plainByte hd] at low
    obtain ⟨m, high⟩ := high
    obtain ⟨n, low⟩ := low
    obtain ⟨hm, high⟩ := value?_eq_some_iff.1 high
    obtain ⟨hn, low⟩ := value?_eq_some_iff.1 low
    have even : cs.length % 2 = 0 := by
      rw [List.length_cons, List.length_cons] at even
      omega
    obtain ⟨bs, spelled⟩ := exists_spelled even plain digits
    refine ⟨UInt8.ofNat (16 * m + n) :: bs, ?_⟩
    have byte : (UInt8.ofNat (16 * m + n)).toNat = 16 * m + n := Utf8.toNat_byte (by omega)
    have quotient : (16 * m + n) / 16 = m := by omega
    have remainder : (16 * m + n) % 16 = n := by omega
    rw [encode_cons, byte, quotient, remainder, List.map_cons, List.map_cons, high, low, spelled]

/-- The first byte that is no digit is told with its position. -/
theorem decodeFrom_of_bad {b : UInt8} (bad : ¬IsDigit b) (after : Bytes) :
    ∀ {before : Bytes} (acc : Bytes) (position : Nat), (∀ d ∈ before, IsDigit d) →
    (before ++ b :: after).length % 2 = 0 →
    decodeFrom acc position (before ++ b :: after) =
      .error (.badDigit b (position + before.length))
  | [], acc, position, _, even => by
    cases after with
    | nil => cases even
    | cons c after =>
      rw [List.nil_append, decodeFrom, value?_of_not_isDigit bad]
      rfl
  | [a], acc, position, digits, _ => by
    obtain ⟨n, here⟩ := isDigit_iff.1 (digits a List.mem_cons_self)
    rw [List.singleton_append, decodeFrom, here, value?_of_not_isDigit bad]
    rfl
  | a :: c :: before, acc, position, digits, even => by
    rw [List.forall_mem_cons, List.forall_mem_cons] at digits
    obtain ⟨first, second, digits⟩ := digits
    obtain ⟨m, first⟩ := isDigit_iff.1 first
    obtain ⟨n, second⟩ := isDigit_iff.1 second
    have even : (before ++ b :: after).length % 2 = 0 := by
      simp only [List.cons_append, List.length_cons] at even
      omega
    rw [List.cons_append, List.cons_append, decodeFrom, first, second]
    dsimp only
    rw [decodeFrom_of_bad bad after _ _ digits even, List.length_cons, List.length_cons,
      Nat.add_assoc, Nat.add_comm 2]

theorem digits_or_bad (text : Bytes) : (∀ d ∈ text, IsDigit d) ∨
    ∃ before b after, text = before ++ b :: after ∧ (∀ d ∈ before, IsDigit d) ∧ ¬IsDigit b := by
  induction text with
  | nil => exact .inl fun _ mem => nomatch mem
  | cons d text ih =>
    by_cases digit : IsDigit d
    · rcases ih with digits | ⟨before, b, after, rfl, digits, bad⟩
      · exact .inl (List.forall_mem_cons.2 ⟨digit, digits⟩)
      · exact .inr ⟨d :: before, b, after, rfl, List.forall_mem_cons.2 ⟨digit, digits⟩, bad⟩
    · exact .inr ⟨[], d, text, rfl, fun _ mem => (nomatch mem), digit⟩

/-- A text is decoded to the bytes that it spells with its letters lowered. -/
theorem decode_of_spelled {bs : Bytes} {cs : List Char}
    (spelled : cs.map Char.toLower = encode bs) : decode (Utf8.encode cs) = .ok bs := by
  have length : cs.length = 2 * bs.length := by
    rw [← length_encode, ← spelled, List.length_map]
  have even : ¬(cs.map plainByte).length % 2 = 1 := by
    rw [List.length_map]
    omega
  rw [Utf8.encode_of_isPlain (isPlain_of_spelled spelled), decode, if_neg even,
    decodeFrom_of_spelled spelled]
  rfl

/-- A text of an even number of digits, and of nothing else, spells bytes. -/
theorem exists_spelled_of_digits {cs : List Char} (even : (Utf8.encode cs).length % 2 = 0)
    (digits : ∀ b ∈ Utf8.encode cs, IsDigit b) :
    ∃ bs, cs.map Char.toLower = encode bs ∧ (Utf8.encode cs).length = 2 * bs.length := by
  have plain : ∀ c ∈ cs, IsPlain c := Utf8.isPlain_of_encode fun b mem => by
    obtain ⟨n, read⟩ := isDigit_iff.1 (digits b mem)
    exact (value?_lt read).2
  rw [Utf8.encode_of_isPlain plain] at even digits ⊢
  rw [List.length_map] at even ⊢
  obtain ⟨bs, spelled⟩ := exists_spelled even plain digits
  refine ⟨bs, spelled, ?_⟩
  rw [← length_encode, ← spelled, List.length_map]

theorem head_of_spelled {b b' : UInt8} {bs : Bytes} {rest : List Char}
    (same : encode (b :: bs) = encode [b'] ++ rest) : b = b' := by
  have split : encode (b :: bs) = encode [b] ++ encode bs := rfl
  rw [split] at same
  exact List.singleton_inj.1 (encode_injective (List.append_inj_left same rfl))

theorem toLower_encode (bs : Bytes) : (encode bs).map Char.toLower = encode bs := by
  have lowered : ∀ n : Fin 16, (digit n.val).toLower = digit n.val := by decide
  induction bs with
  | nil => rfl
  | cons b bs ih =>
    have := b.toNat_lt
    rw [encode_cons, List.map_cons, List.map_cons, ih, lowered ⟨b.toNat / 16, by omega⟩,
      lowered ⟨b.toNat % 16, by omega⟩]

theorem isBlank_of_mem_encode {bs : Bytes} {c : Char} (mem : c ∈ encode bs) :
    isBlank c = false := by
  have dark : ∀ n : Fin 16, isBlank (digit n.val) = false := by decide
  obtain ⟨b, -, mem⟩ := List.mem_flatMap.1 mem
  have := b.toNat_lt
  simp only [List.mem_cons, List.not_mem_nil, or_false] at mem
  rcases mem with rfl | rfl
  · exact dark ⟨b.toNat / 16, by omega⟩
  · exact dark ⟨b.toNat % 16, by omega⟩

end Text.Hex

theorem trimStart_eq_self {cs : List Char} (dark : ∀ c ∈ cs, Text.isBlank c = false) :
    Text.trimStart cs = cs := by
  cases cs with
  | nil => rfl
  | cons c cs =>
    rw [Text.trimStart, List.dropWhile_cons_of_neg (by rw [dark c List.mem_cons_self]; decide)]

theorem trim_eq_self {cs : List Char} (dark : ∀ c ∈ cs, Text.isBlank c = false) :
    Text.trim cs = cs := by
  have dark' : ∀ c ∈ cs.reverse, Text.isBlank c = false := fun c mem =>
    dark c (List.mem_reverse.1 mem)
  rw [Text.trim, trimStart_eq_self dark, trimStart_eq_self dark', List.reverse_reverse]

namespace ContentId

/-! ### Reading and refusing -/

/-- The text without the white space around it. -/
def bare (s : String) : List Char := Text.trim s.toList

def bareBytes (s : String) : Bytes := Text.Utf8.encode (bare s)

/-- What is told of a text that is no content id: the first that applies. -/
inductive FirstFault (s : String) : Fault → Prop
  | oddLength (odd : (bareBytes s).length % 2 = 1) : FirstFault s (.notHex s .oddLength)
  | badDigit {before : Bytes} {b : UInt8} {after : Bytes} (even : (bareBytes s).length % 2 = 0)
      (text : bareBytes s = before ++ b :: after) (digits : ∀ d ∈ before, Text.Hex.IsDigit d)
      (bad : ¬Text.Hex.IsDigit b) : FirstFault s (.notHex s (.badDigit b before.length))
  | badLength (even : (bareBytes s).length % 2 = 0)
      (digits : ∀ d ∈ bareBytes s, Text.Hex.IsDigit d) (length : (bareBytes s).length / 2 ≠ 33) :
      FirstFault s (.badLength ((bareBytes s).length / 2))
  | unknownCodec {codec : UInt8} {rest : List Char}
      (digits : ∀ d ∈ bareBytes s, Text.Hex.IsDigit d) (length : (bareBytes s).length = 2 * 33)
      (text : (bare s).map Char.toLower = Text.Hex.encode [codec] ++ rest)
      (unknown : codec ≠ 0x55 ∧ codec ≠ 0x70) : FirstFault s (.unknownCodec codec)

theorem ofBytes_bytes (id : ContentId) : ofBytes id.bytes = .ok id := by
  obtain ⟨codec, ⟨bs, size⟩⟩ := id
  have known := (Codec.ofByte?_eq_some_iff codec.byte codec).2 rfl
  simp only [bytes, ofBytes, Digest.ofBytes?, size, dif_pos, known]

theorem ofBytes_of_length {bs : Bytes} (length : bs.length ≠ 33) :
    ofBytes bs = .error (.badLength bs.length) := by
  cases bs with
  | nil => rfl
  | cons b rest =>
    have other : rest.length ≠ 32 := fun h => length (congrArg Nat.succ h)
    rw [ofBytes, Digest.ofBytes?, dif_neg other]

theorem ofBytes_of_unknown {codec : UInt8} {rest : Bytes} (length : rest.length = 32)
    (unknown : Codec.ofByte? codec = none) :
    ofBytes (codec :: rest) = .error (.unknownCodec codec) := by
  rw [ofBytes, Digest.ofBytes?, dif_pos length]
  dsimp only
  rw [unknown]

theorem ofByte?_eq_none_iff {b : UInt8} : Codec.ofByte? b = none ↔ b ≠ 0x55 ∧ b ≠ 0x70 := by
  unfold Codec.ofByte?
  split
  · next raw => simp [raw]
  · next raw =>
    split
    · next node => simp [node]
    · next node => simp [raw, node]

theorem parse_of_spelled {s : String} {bs : Bytes}
    (spelled : (bare s).map Char.toLower = Text.Hex.encode bs) : parse s = ofBytes bs := by
  have decoded : Text.Hex.decode (Text.Utf8.encode (Text.trim s.toList)) = .ok bs :=
    Text.Hex.decode_of_spelled spelled
  rw [parse, decoded]

theorem parse_of_notHex {s : String} {fault : Text.Hex.Fault}
    (failed : Text.Hex.decode (bareBytes s) = .error fault) :
    parse s = .error (.notHex s fault) := by
  have failed : Text.Hex.decode (Text.Utf8.encode (Text.trim s.toList)) = .error fault := failed
  rw [parse, failed]

theorem parse_of_fault {s : String} {fault : Fault} (first : FirstFault s fault) :
    parse s = .error fault := by
  cases first with
  | oddLength odd => exact parse_of_notHex (if_pos odd)
  | badDigit even text digits bad =>
    apply parse_of_notHex
    rw [Text.Hex.decode, if_neg (by omega)]
    rw [text] at even ⊢
    rw [Text.Hex.decodeFrom_of_bad bad _ _ _ digits even, Nat.zero_add]
  | badLength even digits length =>
    obtain ⟨bs, spelled, size⟩ := Text.Hex.exists_spelled_of_digits even digits
    have size : (bareBytes s).length / 2 = bs.length := by
      rw [bareBytes, size]
      omega
    rw [size] at length ⊢
    rw [parse_of_spelled spelled, ofBytes_of_length length]
  | @unknownCodec codec rest digits length text unknown =>
    have even : (bareBytes s).length % 2 = 0 := by omega
    obtain ⟨bs, spelled, size⟩ := Text.Hex.exists_spelled_of_digits even digits
    have size : bs.length = 33 := by
      have size : (bareBytes s).length = 2 * bs.length := size
      omega
    obtain ⟨b, hash, rfl⟩ := List.exists_cons_of_length_eq_add_one size
    obtain rfl : b = codec := Text.Hex.head_of_spelled (spelled.symm.trans text)
    rw [parse_of_spelled spelled,
      ofBytes_of_unknown (Nat.succ.inj size) (ofByte?_eq_none_iff.2 unknown)]

/-- Every text either spells an id or has something wrong with it. -/
theorem exists_id_or_fault (s : String) :
    (∃ id : ContentId, (bare s).map Char.toLower = id.chars) ∨ ∃ fault, FirstFault s fault := by
  by_cases odd : (bareBytes s).length % 2 = 1
  · exact .inr ⟨_, .oddLength odd⟩
  have even : (bareBytes s).length % 2 = 0 := by omega
  rcases Text.Hex.digits_or_bad (bareBytes s) with digits | ⟨before, b, after, text, digits, bad⟩
  · by_cases length : (bareBytes s).length / 2 = 33
    · have length : (bareBytes s).length = 2 * 33 := by omega
      obtain ⟨bs, spelled, size⟩ := Text.Hex.exists_spelled_of_digits even digits
      have size : bs.length = 33 := by
        have size : (bareBytes s).length = 2 * bs.length := size
        omega
      obtain ⟨b, hash, rfl⟩ := List.exists_cons_of_length_eq_add_one size
      cases known : Codec.ofByte? b with
      | none => exact .inr ⟨_, .unknownCodec digits length spelled (ofByte?_eq_none_iff.1 known)⟩
      | some codec =>
        obtain rfl := (Codec.ofByte?_eq_some_iff b codec).1 known
        exact .inl ⟨⟨codec, hash, Nat.succ.inj size⟩, spelled⟩
    · exact .inr ⟨_, .badLength even digits length⟩
  · exact .inr ⟨_, .badDigit even text digits bad⟩

theorem parse_eq_ok_iff {s : String} {id : ContentId} :
    parse s = .ok id ↔ (bare s).map Char.toLower = id.chars := by
  have reads : ∀ {id : ContentId}, (bare s).map Char.toLower = id.chars → parse s = .ok id :=
    fun spelled => (parse_of_spelled spelled).trans (ofBytes_bytes _)
  constructor
  · intro h
    rcases exists_id_or_fault s with ⟨id', spelled⟩ | ⟨fault, first⟩
    · rw [reads spelled] at h
      cases h
      exact spelled
    · rw [parse_of_fault first] at h
      cases h
  · exact reads

theorem parse_eq_error_iff {s : String} {fault : Fault} :
    parse s = .error fault ↔ FirstFault s fault := by
  constructor
  · intro h
    rcases exists_id_or_fault s with ⟨id, spelled⟩ | ⟨fault', first⟩
    · rw [parse_eq_ok_iff.2 spelled] at h
      cases h
    · rw [parse_of_fault first] at h
      cases h
      exact first
  · exact parse_of_fault

theorem bare_text (id : ContentId) : bare id.text = id.chars := by
  rw [bare, text, String.toList_ofList]
  exact trim_eq_self fun c mem => Text.Hex.isBlank_of_mem_encode mem

theorem length_chars (id : ContentId) : id.chars.length = 66 := by
  rw [chars, Text.Hex.length_encode, bytes, List.length_cons, id.digest.size]

/-- A text is read as an id if it is the id's text but for white space around it and the case of
letters; so an id has one text and a text names one id. Any other text is refused for the first
thing that is wrong with it. -/
theorem spelled_or_refused :
    (∀ id : ContentId, id.text.length = 66 ∧ parse id.text = .ok id) ∧
    (∀ s id, parse s = .ok id ↔
      String.ofList ((Text.trim s.toList).map Char.toLower) = id.text) ∧
    (∀ i j : ContentId, i.text = j.text ↔ i = j) ∧
    ∀ s fault, parse s = .error fault ↔ FirstFault s fault := by
  refine ⟨fun id => ⟨?_, ?_⟩, fun s id => ?_, fun i j => ?_, fun s fault => parse_eq_error_iff⟩
  · rw [text, String.length_ofList, length_chars]
  · rw [parse_eq_ok_iff, bare_text]
    exact Text.Hex.toLower_encode _
  · rw [parse_eq_ok_iff]
    exact ⟨fun h => congrArg String.ofList h, String.ofList_injective⟩
  · exact ⟨text_injective, fun same => congrArg text same⟩

end ContentId

end Relay
