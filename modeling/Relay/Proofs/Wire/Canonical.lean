import Relay.Content.Node
import Relay.Proofs.Wire.Reads
import Relay.Wire.Envelope

/-!
# Written forms are canonical

Envelopes, nodes, thread updates and queries each have one written form: reading gives back what
was written, what is read was written so, and neither a part of a written form nor one with more
behind it is read. Content ids rest on this, as equal objects are to have equal ids.
-/

namespace Relay

/-! ### Which values have a written form -/

/-- The lengths that an envelope is written with have 64 bits. -/
def Envelope.Fits (e : Envelope) : Prop :=
  e.payload.length < 2 ^ 64 ∧ e.signature.length < 2 ^ 64

def ThreadUpdate.Fits (u : ThreadUpdate) : Prop :=
  Wire.TextFits u.thread ∧ u.node.length < 2 ^ 64 ∧ ∀ block ∈ u.block, block.length < 2 ^ 64

def Query.Fits (q : Query) : Prop := Wire.TextFits q.id

def Node.Fits (n : Node) : Prop :=
  n.data.length < 2 ^ 64 ∧ n.links.length < 2 ^ 64 ∧ ∀ l ∈ n.links, Wire.TextFits l.name

/-! ### Records read what they write -/

open Wire

theorem ContentId.reads : Reads ContentId.reader ContentId.wire fun _ => True := by
  intro bs id rest
  simp only [ContentId.reader, bind_eq_ok_iff, reads_getCase 2 (by decide) _ _ _,
    reads_take _ _ _ _]
  constructor
  · rintro ⟨index, mid, ⟨few, rfl⟩, taken, mid', ⟨size, rfl⟩, h⟩
    simp only [Digest.ofBytes?, size, dif_pos] at h
    obtain ⟨rfl, rfl⟩ := pure_eq_ok_iff.1 h
    refine ⟨trivial, ?_⟩
    rw [ContentId.wire, List.append_assoc]
    match index with
    | 0 => rfl
    | 1 => rfl
    | n + 2 => omega
  · rintro ⟨-, rfl⟩
    obtain ⟨codec, digest⟩ := id
    cases codec with
    | raw =>
      refine ⟨0, digest.bytes ++ rest, ⟨by decide, List.append_assoc _ _ _⟩, digest.bytes, rest,
        ⟨digest.size, rfl⟩, ?_⟩
      simp only [Digest.ofBytes?, digest.size, dif_pos]
      rfl
    | node =>
      refine ⟨1, digest.bytes ++ rest, ⟨by decide, List.append_assoc _ _ _⟩, digest.bytes, rest,
        ⟨digest.size, rfl⟩, ?_⟩
      simp only [Digest.ofBytes?, digest.size, dif_pos]
      rfl

theorem Link.reads : Reads Link.reader Link.wire fun l => TextFits l.name := by
  intro bs l rest
  simp only [Link.reader, bind_eq_ok_iff, pure_eq_ok_iff, reads_getText _ _ _,
    ContentId.reads _ _ _, reads_getNumber 8 _ _ _]
  constructor
  · rintro ⟨name, _, ⟨hn, rfl⟩, target, _, ⟨-, rfl⟩, size, _, ⟨hs, rfl⟩, rfl, rfl⟩
    refine ⟨hn, ?_⟩
    have : (UInt64.ofNat size).toNat = size := by rw [UInt64.toNat_ofNat']; omega
    simp only [Link.wire, this, List.append_assoc, putU64]
  · rintro ⟨hn, rfl⟩
    refine ⟨l.name, _, ⟨hn, ?_⟩, l.target, _, ⟨trivial, rfl⟩, l.size.toNat, rest,
      ⟨l.size.toNat_lt, rfl⟩, by rw [UInt64.ofNat_toNat], rfl⟩
    simp only [Link.wire, List.append_assoc, putU64]

theorem Node.reads : Reads Node.reader Node.toBytes Node.Fits := by
  intro bs n rest
  simp only [Node.reader, bind_eq_ok_iff, pure_eq_ok_iff, reads_getBytes _ _ _,
    reads_getList Link.reads _ _ _]
  constructor
  · rintro ⟨data, _, ⟨hd, rfl⟩, links, _, ⟨hl, rfl⟩, rfl, rfl⟩
    exact ⟨⟨hd, hl⟩, by simp only [Node.toBytes, List.append_assoc]⟩
  · rintro ⟨⟨hd, hl⟩, rfl⟩
    exact ⟨n.data, _, ⟨hd, by simp only [Node.toBytes, List.append_assoc]⟩, n.links, rest,
      ⟨hl, rfl⟩, rfl, rfl⟩

theorem ThreadUpdate.reads : Reads ThreadUpdate.reader ThreadUpdate.toBytes ThreadUpdate.Fits := by
  intro bs u rest
  simp only [ThreadUpdate.reader, bind_eq_ok_iff, pure_eq_ok_iff, reads_getText _ _ _,
    reads_getBytes _ _ _, reads_getOption reads_getBytes _ _ _]
  constructor
  · rintro ⟨thread, _, ⟨ht, rfl⟩, node, _, ⟨hn, rfl⟩, block, _, ⟨hb, rfl⟩, rfl, rfl⟩
    exact ⟨⟨ht, hn, hb⟩, by simp only [ThreadUpdate.toBytes, List.append_assoc]⟩
  · rintro ⟨⟨ht, hn, hb⟩, rfl⟩
    exact ⟨u.thread, _, ⟨ht, by simp only [ThreadUpdate.toBytes, List.append_assoc]⟩, u.node, _,
      ⟨hn, rfl⟩, u.block, rest, ⟨hb, rfl⟩, rfl, rfl⟩

theorem Query.reads : Reads Query.reader Query.toBytes Query.Fits := by
  intro bs q rest
  simp only [Query.reader, bind_eq_ok_iff, pure_eq_ok_iff, reads_getText _ _ _,
    reads_getCase 1 (by decide) _ _ _, reads_getNumber 4 _ _ _]
  constructor
  · rintro ⟨id, _, ⟨hi, rfl⟩, kind, _, ⟨hk, rfl⟩, limit, _, ⟨hl, rfl⟩, rfl, rfl⟩
    obtain rfl : kind = 0 := by omega
    refine ⟨hi, ?_⟩
    have : (UInt32.ofNat limit).toNat = limit := by rw [UInt32.toNat_ofNat']; omega
    simp only [Query.toBytes, this, List.append_assoc, putU32]
  · rintro ⟨hi, rfl⟩
    refine ⟨q.id, _, ⟨hi, ?_⟩, 0, _, ⟨by decide, rfl⟩, q.limit.toNat, rest,
      ⟨q.limit.toNat_lt, rfl⟩, by rw [UInt32.ofNat_toNat], rfl⟩
    simp only [Query.toBytes, List.append_assoc, putU32]

theorem Kind.ofIndex_index (k : Kind) : Kind.ofIndex k.index = k := by cases k <;> rfl

theorem Kind.index_ofIndex {n : Nat} (h : n < 3) : (Kind.ofIndex n).index = n := by
  match n with
  | 0 => rfl
  | 1 => rfl
  | 2 => rfl
  | n + 3 => omega

theorem Kind.index_lt (k : Kind) : k.index < 3 := by cases k <;> decide

theorem Envelope.reads : Reads Envelope.reader Envelope.toBytes Envelope.Fits := by
  intro bs e rest
  simp only [Envelope.reader, bind_eq_ok_iff, pure_eq_ok_iff, reads_getCase 3 (by decide) _ _ _,
    reads_getBytes _ _ _]
  constructor
  · rintro ⟨index, _, ⟨hi, rfl⟩, payload, _, ⟨hp, rfl⟩, signature, _, ⟨hs, rfl⟩, rfl, rfl⟩
    refine ⟨⟨hp, hs⟩, ?_⟩
    simp only [Envelope.toBytes, Kind.index_ofIndex hi, List.append_assoc]
  · rintro ⟨⟨hp, hs⟩, rfl⟩
    refine ⟨e.kind.index, _, ⟨e.kind.index_lt, ?_⟩, e.payload, _, ⟨hp, rfl⟩, e.signature, rest,
      ⟨hs, rfl⟩, by rw [Kind.ofIndex_index], rfl⟩
    simp only [Envelope.toBytes, List.append_assoc]

/-! ### Canonical forms -/

/-- Reading and writing are inverse to each other, and bytes that are cut short or go on are
refused as malformed. -/
structure Canonical {α ε : Type} (write : α → Bytes) (read : Bytes → Except ε α)
    (fits : α → Prop) (malformed : Fault → ε) : Prop where
  read_write : ∀ a, fits a → read (write a) = .ok a
  write_read : ∀ bs a, read bs = .ok a → write a = bs
  cut_off : ∀ bs more a, read (bs ++ more) = .ok a → more ≠ [] →
    ∃ fault, read bs = .error (malformed fault)
  left_over : ∀ bs more a, read bs = .ok a → more ≠ [] →
    ∃ fault, read (bs ++ more) = .error (malformed fault)

theorem mapError_eq_ok_iff {α ε ε' : Type} {r : Except ε α} {f : ε → ε'} {a : α} :
    r.mapError f = .ok a ↔ r = .ok a := by
  constructor
  · intro h
    cases r with
    | ok b => cases h; rfl
    | error e => cases h
  · rintro rfl
    rfl

theorem mapError_eq_error {α ε ε' : Type} {r : Except ε α} (f : ε → ε') {e : ε}
    (h : r = .error e) : r.mapError f = .error (f e) := by
  rw [h]
  rfl

theorem canonical_of_reads {α ε : Type} {value : Reader α} {put : α → Bytes} {fits : α → Prop}
    (h : Reads value put fits) (malformed : Fault → ε) :
    Canonical put (fun bs => (decode value bs).mapError malformed) fits malformed where
  read_write := fun a ha => mapError_eq_ok_iff.2 ((decode_eq_ok_iff h).2 ⟨ha, rfl⟩)
  write_read := fun bs a hr => ((decode_eq_ok_iff h).1 (mapError_eq_ok_iff.1 hr)).2.symm
  cut_off := by
    intro bs more a hr some
    obtain ⟨fault, hf⟩ := decode_prefix_error h (mapError_eq_ok_iff.1 hr) some
    exact ⟨fault, mapError_eq_error malformed hf⟩
  left_over := by
    intro bs more a hr some
    obtain ⟨fault, hf⟩ := decode_append_error h (mapError_eq_ok_iff.1 hr) some
    exact ⟨fault, mapError_eq_error malformed hf⟩

theorem Envelope.canonical :
    Canonical Envelope.toBytes Envelope.ofBytes Envelope.Fits Envelope.Fault.malformed :=
  canonical_of_reads Envelope.reads _

theorem Node.canonical : Canonical Node.toBytes Node.ofBytes Node.Fits id := by
  have h := canonical_of_reads (ε := Fault) Node.reads id
  have same : ∀ bs, (decode Node.reader bs).mapError id = Node.ofBytes bs := by
    intro bs
    unfold Node.ofBytes
    cases decode Node.reader bs <;> rfl
  simpa only [same] using h

theorem ThreadUpdate.canonical (signature : Bytes) :
    Canonical ThreadUpdate.toBytes
      (fun payload => Envelope.threadUpdate { kind := .threadUpdate, payload, signature })
      ThreadUpdate.Fits Envelope.Fault.malformedPayload :=
  canonical_of_reads ThreadUpdate.reads _

theorem Query.canonical (signature : Bytes) :
    Canonical Query.toBytes
      (fun payload => Envelope.query { kind := .query, payload, signature })
      Query.Fits Envelope.Fault.malformedPayload :=
  canonical_of_reads Query.reads _

theorem Envelope.openAs_of_ne {α : Type} {e : Envelope} {kind : Kind} (reader : Reader α)
    (h : e.kind ≠ kind) : e.openAs kind reader = .error (.unexpected kind e.kind) := by
  rw [Envelope.openAs, if_neg h]

/-- All that peers send has one written form, on its own and as the payload of an envelope of its
kind. An envelope opened as another kind is refused before its payload is looked at. -/
theorem written_forms_canonical :
    Canonical Envelope.toBytes Envelope.ofBytes Envelope.Fits Envelope.Fault.malformed ∧
    Canonical Node.toBytes Node.ofBytes Node.Fits id ∧
    (∀ signature, Canonical ThreadUpdate.toBytes
      (fun payload => Envelope.threadUpdate { kind := .threadUpdate, payload, signature })
      ThreadUpdate.Fits Envelope.Fault.malformedPayload) ∧
    (∀ signature, Canonical Query.toBytes
      (fun payload => Envelope.query { kind := .query, payload, signature })
      Query.Fits Envelope.Fault.malformedPayload) ∧
    (∀ u : ThreadUpdate, u.Fits → u.wrap.threadUpdate = .ok u) ∧
    (∀ q : Query, q.Fits → q.wrap.query = .ok q) ∧
    ∀ (α : Type) (reader : Reader α) (e : Envelope) (kind : Kind), e.kind ≠ kind →
      e.openAs kind reader = .error (.unexpected kind e.kind) := by
  refine ⟨Envelope.canonical, Node.canonical, ThreadUpdate.canonical, Query.canonical, ?_, ?_, ?_⟩
  · intro u fits
    exact (ThreadUpdate.canonical []).read_write u fits
  · intro q fits
    exact (Query.canonical []).read_write q fits
  · intro α reader e kind other
    exact Envelope.openAs_of_ne reader other

end Relay
