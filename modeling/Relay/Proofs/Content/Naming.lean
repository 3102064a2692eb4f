import Relay.Content.Id

/-!
# Texts of content ids

No two content ids have one text, so what is kept under the text of an id is kept under the id.
-/

namespace Relay

namespace Text.Hex

theorem digit_injective {m n : Nat} (hm : m < 16) (hn : n < 16) (same : digit m = digit n) :
    m = n := by
  have all : ∀ a b : Fin 16, digit a.val = digit b.val → a = b := by decide
  exact congrArg Fin.val (all ⟨m, hm⟩ ⟨n, hn⟩ same)

theorem encode_injective {bs cs : Bytes} (same : encode bs = encode cs) : bs = cs := by
  induction bs generalizing cs with
  | nil =>
    cases cs with
    | nil => rfl
    | cons c cs => cases same
  | cons b bs ih =>
    cases cs with
    | nil => cases same
    | cons c cs =>
      simp only [encode, List.flatMap_cons, List.cons_append, List.nil_append,
        List.cons.injEq] at same
      obtain ⟨high, low, rest⟩ := same
      have hb := b.toNat_lt
      have hc := c.toNat_lt
      have high := digit_injective (by omega) (by omega) high
      have low := digit_injective (by omega) (by omega) low
      have byte : b = c := UInt8.toNat_inj.1 (by omega)
      rw [byte, ih rest]

end Text.Hex

namespace ContentId

theorem bytes_injective {i j : ContentId} (same : i.bytes = j.bytes) : i = j := by
  obtain ⟨c, ⟨bs, hb⟩⟩ := i
  obtain ⟨d, ⟨cs, hc⟩⟩ := j
  simp only [bytes, List.cons.injEq] at same
  obtain ⟨codec, rfl⟩ := same
  have codec : c = d := by
    have read := (Codec.ofByte?_eq_some_iff c.byte c).2 rfl
    rw [codec, (Codec.ofByte?_eq_some_iff d.byte d).2 rfl] at read
    exact (Option.some.inj read).symm
  rw [codec]

theorem text_injective {i j : ContentId} (same : i.text = j.text) : i = j := by
  apply bytes_injective
  apply Text.Hex.encode_injective
  exact String.ofList_injective same

end ContentId

end Relay
