import Relay.Proofs.Instant.Scanning
import Relay.Proofs.Wire.Canonical
import Relay.Search.Index

/-!
# Results on the wire

A result whose envelope fits a frame is opened as what was wrapped, with the date that calendar and
clock show.
-/

namespace Relay

open Wire

theorem Wire.getDate_putText {t : Instant} (fits : TextFits t.text) (rest : Bytes) :
    getDate (putText t.text ++ rest) = .ok (t.shown, rest) := by
  rw [getDate, bind_eq_ok_iff]
  refine ⟨t.text, rest, (reads_getText _ _ _).2 ⟨fits, rfl⟩, ?_⟩
  rw [Instant.read_text]
  rfl

namespace QueryResult

def shown (r : QueryResult) : QueryResult := { r with date := r.date.shown }

theorem shown_of_regular {r : QueryResult} (regular : r.date.Regular) : r.shown = r := by
  rw [shown, Instant.shown_of_regular regular]

theorem shown_eq_self_iff {r : QueryResult} : r.shown = r ↔ r.date.Regular :=
  ⟨fun same => Instant.shown_eq_self_iff.1 (congrArg date same), shown_of_regular⟩

structure Fits (r : QueryResult) : Prop where
  id : TextFits r.id
  date : TextFits r.date.text
  value : r.value.length < 2 ^ 64

theorem reader_toBytes {r : QueryResult} (fits : r.Fits) (rest : Bytes) :
    reader (r.toBytes ++ rest) = .ok (r.shown, rest) := by
  rw [reader, bind_eq_ok_iff]
  refine ⟨r.id, putText r.date.text ++ (putBytes r.value ++ rest),
    (reads_getText _ _ _).2 ⟨fits.id, ?_⟩, ?_⟩
  · simp only [toBytes, List.append_assoc]
  rw [bind_eq_ok_iff]
  refine ⟨r.date.shown, putBytes r.value ++ rest, getDate_putText fits.date _, ?_⟩
  rw [bind_eq_ok_iff]
  exact ⟨r.value, rest, (reads_getBytes _ _ _).2 ⟨fits.value, rfl⟩, rfl⟩

theorem queryResult_wrap {r : QueryResult} (fits : r.Fits) :
    r.wrap.queryResult = .ok r.shown := by
  have read : decode reader r.toBytes = .ok r.shown := by
    rw [decode_eq_ok_iff_run, ← reader_toBytes fits [], List.append_nil]
  rw [Envelope.queryResult, Envelope.openAs, if_pos (show r.wrap.kind = .queryResult from rfl)]
  exact mapError_eq_ok_iff.2 read

theorem length_wrap (r : QueryResult) : r.wrap.toBytes.length = 20 + r.toBytes.length := by
  simp only [wrap, Envelope.toBytes, putBytes, putU32, putU64, List.length_append,
    length_littleEndian, List.length_nil]
  omega

theorem length_toBytes (r : QueryResult) : r.toBytes.length =
    24 + (Text.Utf8.ofText r.id).length + (Text.Utf8.ofText r.date.text).length +
      r.value.length := by
  simp only [toBytes, putText, putBytes, putU64, List.length_append, length_littleEndian]
  omega

theorem fits_of_length {r : QueryResult} (h : r.toBytes.length < 2 ^ 64) : r.Fits := by
  rw [length_toBytes] at h
  constructor
  · unfold TextFits
    omega
  · unfold TextFits
    omega
  · omega

theorem ofBytes_wrap {r : QueryResult} (small : r.toBytes.length < 2 ^ 64) :
    Envelope.ofBytes r.wrap.toBytes = .ok r.wrap :=
  Envelope.canonical.read_write _ ⟨small, Nat.two_pow_pos 64⟩

/-- A result that can be written comes over the wire as it is, unless its date is a leap second
within a minute, which comes as the second after it. A date is written with the fewest of 0, 3, 6
or 9 digits that lose nothing, and is read back in any year. -/
theorem results_survive_wire :
    (∀ r : QueryResult, r.toBytes.length < 2 ^ 64 →
      Envelope.ofBytes r.wrap.toBytes = .ok r.wrap ∧ r.wrap.queryResult = .ok r.shown ∧
        (r.wrap.queryResult = .ok r ↔ r.date.Regular)) ∧
    ∀ t : Instant, (∃ digits, t.HasFraction digits) ∧ Instant.read t.text = .ok t.shown ∧
      (Instant.read t.text = .ok t ↔ t.Regular) := by
  refine ⟨fun r small => ?_, fun t => ⟨t.exists_hasFraction, t.read_text, ?_⟩⟩
  · have opened := queryResult_wrap (fits_of_length small)
    refine ⟨ofBytes_wrap small, opened, ?_⟩
    rw [opened, Except.ok.injEq]
    exact shown_eq_self_iff
  · rw [t.read_text, Except.ok.injEq]
    exact Instant.shown_eq_self_iff

/-- Found in a leap second before the year 0. -/
def ancient : QueryResult where
  id := "t"
  date := ⟨-62309347201, 1500000000, by decide, by decide, by decide⟩
  value := [1, 2]

theorem ancient_survives : ancient.toBytes.length < 2 ^ 64 ∧
    ancient.date.text = "-0005-06-30T23:59:60.500Z" ∧
    Envelope.ofBytes ancient.wrap.toBytes = .ok ancient.wrap ∧
    ancient.wrap.queryResult = .ok ancient := by
  have small : ancient.toBytes.length < 2 ^ 64 := by decide +kernel
  obtain ⟨sent, -, survives⟩ := results_survive_wire.1 ancient small
  exact ⟨small, by decide +kernel, sent, survives.2 (by decide)⟩

/-- Found in a leap second four seconds into a minute. -/
def misplaced : QueryResult where
  id := "t"
  date := ⟨86164, 1333333333, by decide, by decide, by decide⟩
  value := []

theorem misplaced_comes_later : misplaced.toBytes.length < 2 ^ 64 ∧
    misplaced.date.text = "1970-01-01T23:56:05.333333333Z" ∧
    Envelope.ofBytes misplaced.wrap.toBytes = .ok misplaced.wrap ∧
    misplaced.wrap.queryResult = .ok { misplaced with
      date := ⟨86165, 333333333, by decide, by decide, by decide⟩ } ∧
    misplaced.wrap.queryResult ≠ .ok misplaced ∧
    Instant.read misplaced.date.text ≠ .ok misplaced.date := by
  have small : misplaced.toBytes.length < 2 ^ 64 := by decide +kernel
  have opened := queryResult_wrap (fits_of_length small)
  refine ⟨small, by decide +kernel, ofBytes_wrap small, opened.trans rfl, ?_, ?_⟩
  · rw [opened]
    exact fun same => absurd (shown_eq_self_iff.1 (Except.ok.inj same)) (by decide)
  · rw [Instant.read_text]
    exact fun same => absurd (Instant.shown_eq_self_iff.1 (Except.ok.inj same)) (by decide)

/-- What a client does with a frame of a search. -/
def ofFrame? (payload : Bytes) : Option QueryResult := do
  let e ← (Envelope.ofBytes payload).toOption
  e.queryResult.toOption

theorem ofFrame?_wrap {r : QueryResult} (h : Index.fits r.wrap) :
    ofFrame? r.wrap.toBytes = some r.shown := by
  have small : r.wrap.toBytes.length ≤ 65535 := of_decide_eq_true h
  rw [length_wrap] at small
  have opened : Envelope.ofBytes r.wrap.toBytes = .ok r.wrap := ofBytes_wrap (by omega)
  have inner : r.wrap.queryResult = .ok r.shown := queryResult_wrap (fits_of_length (by omega))
  rw [ofFrame?, opened, Except.toOption, Option.bind_eq_bind, Option.bind_some, inner,
    Except.toOption]

end QueryResult

/-! ### The results of a query -/

namespace Index

/-- What a query finds in a listing: the snapshots whose result fits a frame, up to the limit. -/
def answers (limit : Nat) (listing : List Snapshot) : List QueryResult :=
  let small := (listing.filter fun s => fits (result s).wrap).map result
  if limit = 0 then small else small.take limit

theorem results_eq (limit : Nat) (listing : List Snapshot) :
    results limit listing = (answers limit listing).map QueryResult.wrap := by
  have small : (listing.map fun s => (result s).wrap).filter fits =
      ((listing.filter fun s => fits (result s).wrap).map result).map QueryResult.wrap := by
    rw [List.filter_map, List.map_map]
    rfl
  unfold results answers
  dsimp only
  rw [small]
  split
  · rfl
  · rw [List.map_take]

theorem exists_of_mem_answers {limit : Nat} {listing : List Snapshot} {r : QueryResult}
    (h : r ∈ answers limit listing) : ∃ s ∈ listing, fits (result s).wrap ∧ result s = r := by
  have small : r ∈ (listing.filter fun s => fits (result s).wrap).map result := by
    unfold answers at h
    dsimp only at h
    split at h
    · exact h
    · exact List.mem_of_mem_take h
  obtain ⟨s, found, same⟩ := List.mem_map.1 small
  obtain ⟨listed, fits⟩ := List.mem_filter.1 found
  exact ⟨s, listed, fits, same⟩

theorem mapM_ofFrame? {rs : List QueryResult} (fits : ∀ r ∈ rs, fits r.wrap)
    (regular : ∀ r ∈ rs, r.date.Regular) :
    (rs.map (Envelope.toBytes ∘ QueryResult.wrap)).mapM QueryResult.ofFrame? = some rs := by
  induction rs with
  | nil => rfl
  | cons r rs ih =>
    rw [List.map_cons, List.mapM_cons, Function.comp_apply,
      QueryResult.ofFrame?_wrap (fits r List.mem_cons_self),
      QueryResult.shown_of_regular (regular r List.mem_cons_self),
      ih (fun r' hr => fits r' (List.mem_cons_of_mem _ hr))
        fun r' hr => regular r' (List.mem_cons_of_mem _ hr)]
    rfl

end Index

end Relay
