import Relay.Proofs.Instant.Stored
import Relay.Records.Basic

/-!
# Listings of snapshots

A listing holds a client's own snapshots, the newest first; those of one date stand as they came.
The store sorts the texts of the dates, which is the same where the dates can be read back.
-/

namespace Relay

/-! ### Order of dates -/

namespace Snapshot

/-- Snapshots with the newest first. -/
def newestFirst (snapshots : List Snapshot) : List Snapshot :=
  snapshots.mergeSort fun s t => decide ¬s.updated < t.updated

theorem newestFirst_perm (snapshots : List Snapshot) : (newestFirst snapshots).Perm snapshots :=
  List.mergeSort_perm _ _

theorem newestFirst_sorted (snapshots : List Snapshot) :
    (newestFirst snapshots).Pairwise fun s t => ¬s.updated < t.updated := by
  have sorted : (newestFirst snapshots).Pairwise fun s t => decide (¬s.updated < t.updated) := by
    refine List.pairwise_mergeSort ?_ ?_ snapshots
    · intro s t u hst htu
      simp only [decide_eq_true_eq, Instant.lt_iff] at *
      omega
    · intro s t
      simp only [Bool.or_eq_true, decide_eq_true_eq, Instant.lt_iff]
      omega
  exact sorted.imp of_decide_eq_true

end Snapshot

/-! ### Reading rows -/

namespace Records

/-- The rows of a client, in the order in which they came. -/
def ownRows (r : Records) (client : String) : List ((String × String) × SnapshotRow) :=
  r.snapshots.entries.filter fun e => e.1.2 == client

theorem updated_of_readSnapshot {row : (String × String) × SnapshotRow} {s : Snapshot}
    (h : readSnapshot row = .ok s) :
    s.updated.ReadsBack ∧ row.2.updated = s.updated.storedText := by
  unfold readSnapshot readDate at h
  cases found : Instant.readStored? row.2.updated with
  | none =>
    rw [found] at h
    cases h
  | some t =>
    rw [found] at h
    cases h
    exact Instant.readStored?_eq_some_iff.1 found

theorem readsBack_of_read {rows : List ((String × String) × SnapshotRow)} {own : List Snapshot}
    (read : rows.mapM readSnapshot = .ok own) {s : Snapshot} (h : s ∈ own) :
    s.updated.ReadsBack := by
  have mem : Except.ok s ∈ own.map (.ok : Snapshot → Except RecordError Snapshot) :=
    List.mem_map_of_mem h
  rw [← mapM_eq_ok_iff.1 read] at mem
  obtain ⟨row, -, found⟩ := List.mem_map.1 mem
  exact (updated_of_readSnapshot found).1

/-- The order of rows, for rows that can be read. -/
def newer : Except RecordError Snapshot → Except RecordError Snapshot → Bool
  | .ok s, .ok t => decide ¬s.updated < t.updated
  | _, _ => true

theorem newer_read {row row' : (String × String) × SnapshotRow} {s t : Snapshot}
    (hs : readSnapshot row = .ok s) (ht : readSnapshot row' = .ok t) :
    decide (row'.2.updated ≤ row.2.updated) = newer (readSnapshot row) (readSnapshot row') := by
  obtain ⟨dated, text⟩ := updated_of_readSnapshot hs
  obtain ⟨dated', text'⟩ := updated_of_readSnapshot ht
  rw [hs, ht, newer, text, text', decide_eq_decide, ← Instant.storedText_lt_iff dated dated']
  exact Iff.rfl

theorem snapshotsOf_eq {r : Records} {client : String} {own : List Snapshot}
    (h : (r.ownRows client).mapM readSnapshot = .ok own) :
    r.snapshotsOf client = .ok (Snapshot.newestFirst own) := by
  rw [mapM_eq_ok_iff] at h
  have readable : ∀ row ∈ r.ownRows client, ∃ s, readSnapshot row = .ok s := by
    intro row mem
    have := List.mem_map_of_mem mem (f := readSnapshot)
    rw [h] at this
    obtain ⟨s, _, same⟩ := List.mem_map.1 this
    exact ⟨s, same.symm⟩
  rw [snapshotsOf, mapM_eq_ok_iff, snapshotRows]
  change ((r.ownRows client).mergeSort _).map readSnapshot = _
  -- the two orders agree on rows that can be read, and these are the only ones that are sorted
  rw [List.map_mergeSort (s := newer), h, Snapshot.newestFirst, List.map_mergeSort (s := newer)]
  · intro s _ t _
    rfl
  · intro row mem row' mem'
    obtain ⟨s, hs⟩ := readable row mem
    obtain ⟨t, ht⟩ := readable row' mem'
    exact newer_read hs ht

end Records

end Relay
