import Relay.Proofs.Records.Maps

/-!
# Listings in order of time

A listing is sorted by the texts of its dates, which stand in the order of what calendar and clock
show. Records of one date stand in the order in which their keys came: a key comes when a record is
written under it and there was none, and keeps its place until it is erased.
-/

namespace Relay

open Text
open Records (Call)

/-! ### Sorting keeps the order of ties -/

theorem pairwise_mergeSort_stable {α : Type} {le : α → α → Bool} {R : α → α → Prop} {l : List α}
    (trans : ∀ a b c, le a b → le b c → le a c) (total : ∀ a b, le a b || le b a)
    (ordered : l.Pairwise R) :
    (l.mergeSort le).Pairwise fun a b => le a b ∧ (le b a → R a b) := by
  have sorted := List.pairwise_mergeSort (List.zipIdxLE_trans trans) (List.zipIdxLE_total total)
    l.zipIdx
  have apart : (l.zipIdx.mergeSort (List.zipIdxLE le)).Pairwise fun p q => p.2 ≠ q.2 := by
    have perm := (List.mergeSort_perm l.zipIdx (List.zipIdxLE le)).map Prod.snd
    rw [List.zipIdx_map_snd] at perm
    exact List.pairwise_map.1 (perm.nodup_iff.2 List.nodup_range')
  rw [← List.mergeSort_zipIdx, List.pairwise_map]
  refine (sorted.and apart).imp_of_mem ?_
  rintro ⟨a, i⟩ ⟨b, j⟩ memA memB ⟨order, ne⟩
  rw [List.mem_mergeSort, List.mk_mem_zipIdx_iff_getElem?, List.getElem?_eq_some_iff] at memA memB
  obtain ⟨hi, rfl⟩ := memA
  obtain ⟨hj, rfl⟩ := memB
  unfold List.zipIdxLE at order
  split at order
  · next before =>
    refine ⟨before, fun tie => ?_⟩
    rw [if_pos tie] at order
    have first : i ≤ j := of_decide_eq_true order
    exact List.pairwise_iff_getElem.1 ordered i j hi hj (Nat.lt_of_le_of_ne first ne)
  · cases order

theorem exists_mergeSort_map {α β : Type} {f : α → β} {le : β → β → Bool} {R : α → α → Prop}
    {l : List α} (trans : ∀ b c d, le b c → le c d → le b d) (total : ∀ b c, le b c || le c b)
    (ordered : l.Pairwise R) :
    ∃ sorted : List α, (l.map f).mergeSort le = sorted.map f ∧ sorted.Perm l ∧
      sorted.Pairwise fun a b => le (f a) (f b) ∧ (le (f b) (f a) → R a b) := by
  refine ⟨l.mergeSort fun a b => le (f a) (f b), ?_, List.mergeSort_perm _ _, ?_⟩
  · rw [List.map_mergeSort (s := le)]
    intro a _ b _
    rfl
  · exact pairwise_mergeSort_stable (fun a b c => trans _ _ _) (fun a b => total _ _) ordered

/-! ### Histories of a table -/

/-- What a call does to the records of one kind. -/
inductive Edit (κ α : Type) where
  | write (a : α)
  | erase (k : κ)
  | none

section Histories

variable {κ α : Type} {key : α → κ} {edits : List (Edit κ α)} {a : α} {k : κ} {n : Nat}

/-- Whatever was written under the key has been erased. -/
def Gone (key : α → κ) (edits : List (Edit κ α)) (k : κ) : Prop :=
  ∀ before a after, edits = before ++ .write a :: after → key a = k → .erase k ∈ after

/-- So many edits before it stands the first write under the key since that was last erased. -/
def Arrived (key : α → κ) (edits : List (Edit κ α)) (k : κ) (n : Nat) : Prop :=
  ∃ before a after, edits = before ++ .write a :: after ∧ before.length = n ∧ key a = k ∧
    .erase k ∉ after ∧ Gone key before k

/-- The record is the last that was written under its key, and has not been erased. -/
def Latest (key : α → κ) (edits : List (Edit κ α)) (a : α) : Prop :=
  ∃ before after, edits = before ++ .write a :: after ∧ .erase (key a) ∉ after ∧
    ∀ b, .write b ∈ after → key b ≠ key a

/-- One key came before another. -/
def Precedes (key : α → κ) (edits : List (Edit κ α)) (k k' : κ) : Prop :=
  ∃ n n', Arrived key edits k n ∧ Arrived key edits k' n' ∧ n < n'

/-- The keys came in this order. -/
structure Arrivals (key : α → κ) (edits : List (Edit κ α)) (keys : List κ) : Prop where
  arrived : ∀ k ∈ keys, ∃ n, Arrived key edits k n
  placed : keys.Pairwise (Precedes key edits)

theorem snoc_eq_iff {ε : Type} {es before after : List ε} {e x : ε} :
    es ++ [e] = before ++ x :: after ↔
      (after = [] ∧ es = before ∧ e = x) ∨
        ∃ rest, after = rest ++ [e] ∧ es = before ++ x :: rest := by
  constructor
  · intro same
    rcases List.eq_nil_or_concat after with rfl | ⟨rest, last, rfl⟩
    · obtain ⟨same, last⟩ := List.append_inj' same rfl
      exact .inl ⟨rfl, same, List.singleton_inj.1 last⟩
    · rw [List.concat_eq_append, ← List.cons_append, ← List.append_assoc] at same
      obtain ⟨same, last⟩ := List.append_inj' same rfl
      exact .inr ⟨rest, by rw [List.concat_eq_append, last], same⟩
  · rintro (⟨rfl, rfl, rfl⟩ | ⟨rest, rfl, rfl⟩)
    · rfl
    · rw [List.append_assoc, List.cons_append]

theorem gone_nil (key : α → κ) (k : κ) : Gone key [] k := by
  intro before a after same
  exact absurd same.symm (List.append_ne_nil_of_right_ne_nil _ (List.cons_ne_nil _ _))

theorem gone_erase (key : α → κ) (edits : List (Edit κ α)) (k : κ) :
    Gone key (edits ++ [.erase k]) k := by
  intro before a after same here
  obtain ⟨-, -, last⟩ | ⟨rest, rfl, -⟩ := snoc_eq_iff.1 same
  · cases last
  · exact List.mem_append_right _ List.mem_cons_self

theorem Gone.snoc (gone : Gone key edits k) {e : Edit κ α} (other : ∀ a, e = .write a → key a ≠ k) :
    Gone key (edits ++ [e]) k := by
  intro before a after same here
  obtain ⟨-, -, last⟩ | ⟨rest, rfl, split⟩ := snoc_eq_iff.1 same
  · exact absurd here (other a last)
  · exact List.mem_append_left _ (gone before a rest split here)

theorem Arrived.lt (arrived : Arrived key edits k n) : n < edits.length := by
  obtain ⟨before, a, after, rfl, rfl, -⟩ := arrived
  rw [List.length_append, List.length_cons]
  omega

theorem Gone.arrived (gone : Gone key edits (key a)) :
    Arrived key (edits ++ [.write a]) (key a) edits.length :=
  ⟨edits, a, [], rfl, rfl, rfl, List.not_mem_nil, gone⟩

theorem Arrived.snoc (arrived : Arrived key edits k n) {e : Edit κ α} (kept : e ≠ .erase k) :
    Arrived key (edits ++ [e]) k n := by
  obtain ⟨before, a, after, rfl, length, here, last, gone⟩ := arrived
  refine ⟨before, a, after ++ [e], List.append_assoc _ _ _, length, here, fun mem => ?_, gone⟩
  rw [List.mem_append, List.mem_singleton] at mem
  exact mem.elim last fun same => kept same.symm

theorem Precedes.snoc {k' : κ} (first : Precedes key edits k k') {e : Edit κ α}
    (kept : e ≠ .erase k) (kept' : e ≠ .erase k') : Precedes key (edits ++ [e]) k k' := by
  obtain ⟨n, n', arrived, arrived', lt⟩ := first
  exact ⟨n, n', arrived.snoc kept, arrived'.snoc kept', lt⟩

theorem Arrivals.sublist {keys keys' : List κ} (h : Arrivals key edits keys)
    (sub : keys'.Sublist keys) : Arrivals key edits keys' :=
  ⟨fun k mem => h.arrived k (sub.mem mem), h.placed.sublist sub⟩

theorem Arrivals.snoc {keys : List κ} (h : Arrivals key edits keys) {e : Edit κ α}
    (kept : ∀ k ∈ keys, e ≠ .erase k) : Arrivals key (edits ++ [e]) keys := by
  refine ⟨fun k mem => ?_, h.placed.imp_of_mem fun {k} {k'} mem mem' first => ?_⟩
  · obtain ⟨n, arrived⟩ := h.arrived k mem
    exact ⟨n, arrived.snoc (kept k mem)⟩
  · exact first.snoc (kept k mem) (kept k' mem')

/-- A key that is written where there was none comes after those that are there. -/
theorem Arrivals.push {keys : List κ} (h : Arrivals key edits keys)
    (gone : Gone key edits (key a)) :
    Arrivals key (edits ++ [.write a]) (keys ++ [key a]) := by
  have stay : Arrivals key (edits ++ [.write a]) keys := h.snoc fun k _ same => by cases same
  refine ⟨fun k mem => ?_, ?_⟩
  · rw [List.mem_append, List.mem_singleton] at mem
    obtain mem | rfl := mem
    · exact stay.arrived k mem
    · exact ⟨_, gone.arrived⟩
  · refine List.pairwise_append.2
      ⟨stay.placed, List.pairwise_singleton _ _, fun k mem k' last => ?_⟩
    obtain rfl := List.mem_singleton.1 last
    obtain ⟨n, arrived⟩ := h.arrived k mem
    exact ⟨n, _, arrived.snoc (fun same => by cases same), gone.arrived, arrived.lt⟩

theorem latest_snoc_iff {e : Edit κ α} :
    Latest key (edits ++ [e]) a ↔ e = .write a ∨
      e ≠ .erase (key a) ∧ (∀ b, e = .write b → key b ≠ key a) ∧ Latest key edits a := by
  constructor
  · rintro ⟨before, after, same, kept, last⟩
    obtain ⟨-, -, here⟩ | ⟨rest, rfl, split⟩ := snoc_eq_iff.1 same
    · exact .inl here
    · simp only [List.mem_append, List.mem_singleton, not_or] at kept last
      exact .inr ⟨Ne.symm kept.2, fun b same => last b (.inr same.symm), before, rest, split,
        kept.1, fun b mem => last b (.inl mem)⟩
  · rintro (rfl | ⟨kept, other, before, after, rfl, rest, last⟩)
    · exact ⟨edits, [], rfl, List.not_mem_nil, fun b mem => absurd mem List.not_mem_nil⟩
    · refine ⟨before, after ++ [e], List.append_assoc _ _ _, ?_, ?_⟩
      · rw [List.mem_append, List.mem_singleton, not_or]
        exact ⟨rest, Ne.symm kept⟩
      · intro b mem
        rw [List.mem_append, List.mem_singleton] at mem
        exact mem.elim (last b) fun same => other b same.symm

theorem not_latest_nil : ¬Latest key [] a := by
  rintro ⟨before, after, same, -⟩
  exact absurd same.symm (List.append_ne_nil_of_right_ne_nil _ (List.cons_ne_nil _ _))

end Histories

/-! ### Tables and their histories -/

section Follows

variable {κ α ρ : Type} [DecidableEq κ] {key : α → κ} {row : α → ρ} {m : κ → Option α}
  {t : Table κ ρ} {edits : List (Edit κ α)}

def Edit.apply (key : α → κ) (row : α → ρ) (t : Table κ ρ) : Edit κ α → Table κ ρ
  | .write a => t.put (key a) (row a)
  | .erase k => t.erase k
  | .none => t

/-- The table holds what the edits left, in the order in which the keys came. -/
structure Follows (key : α → κ) (row : α → ρ) (edits : List (Edit κ α)) (m : κ → Option α)
    (t : Table κ ρ) : Prop extends Keeps key row m t where
  latest : ∀ a, m (key a) = some a ↔ Latest key edits a
  gone : ∀ {k}, m k = none → Gone key edits k
  arrivals : Arrivals key edits t.keys

theorem follows_nil (key : α → κ) (row : α → ρ) : Follows key row [] (fun _ => none) ∅ where
  toKeeps := keeps_empty key row
  latest a := iff_of_false (fun found => by cases found) not_latest_nil
  gone _ := gone_nil key _
  arrivals := ⟨fun _ mem => absurd mem List.not_mem_nil, List.Pairwise.nil⟩

theorem Keeps.not_mem_keys_iff (h : Keeps key row m t) {k : κ} : k ∉ t.keys ↔ m k = none := by
  rw [← t.get?_eq_none_iff, h.rows, Option.map_eq_none_iff]

theorem Follows.write (h : Follows key row edits m t) (a : α) :
    Follows key row (edits ++ [.write a]) (Maps.set m (key a) (some a))
      (t.put (key a) (row a)) := by
  refine ⟨h.toKeeps.put a, fun b => ?_, fun {k} missing => ?_, ?_⟩
  · rw [latest_snoc_iff, Maps.set, ← h.latest b]
    by_cases here : key b = key a
    · simp [here]
    · have ne : a ≠ b := fun same => here (same ▸ rfl)
      simp [here, ne, Ne.symm here]
  · rw [Maps.set] at missing
    split at missing
    · cases missing
    · next other =>
      refine (h.gone missing).snoc fun b same => ?_
      cases same
      exact Ne.symm other
  · rw [t.keys_put]
    split
    · exact h.arrivals.snoc fun k _ same => by cases same
    · next new => exact h.arrivals.push (h.gone (h.not_mem_keys_iff.1 new))

theorem Follows.erase (h : Follows key row edits m t) (k : κ) :
    Follows key row (edits ++ [.erase k]) (Maps.set m k none) (t.erase k) := by
  have keeps := h.toKeeps.erase k
  have sub : (t.erase k).keys.Sublist t.keys := List.filter_sublist.map Prod.fst
  refine ⟨keeps, fun a => ?_, fun {k'} missing => ?_, ?_⟩
  · rw [latest_snoc_iff, Maps.set, ← h.latest a]
    by_cases here : key a = k
    · simp [here]
    · simp [here, Ne.symm here]
  · rw [Maps.set] at missing
    split at missing
    · next here =>
      subst here
      exact gone_erase key edits k'
    · exact (h.gone missing).snoc fun a same => by cases same
  · refine (h.arrivals.sublist sub).snoc fun k' mem same => ?_
    cases same
    exact keeps.not_mem_keys_iff.2 (if_pos rfl) mem

theorem Follows.none (h : Follows key row edits m t) :
    Follows key row (edits ++ [.none]) m t := by
  refine ⟨h.toKeeps, fun a => ?_, fun missing => ?_, ?_⟩
  · rw [latest_snoc_iff, ← h.latest a]
    simp
  · exact (h.gone missing).snoc fun a same => by cases same
  · exact h.arrivals.snoc fun k _ same => by cases same

theorem Follows.step (h : Follows key row edits m t) (e : Edit κ α) :
    ∃ m', Follows key row (edits ++ [e]) m' (Edit.apply key row t e) := by
  cases e with
  | write a => exact ⟨_, h.write a⟩
  | erase k => exact ⟨_, h.erase k⟩
  | none => exact ⟨_, h.none⟩

theorem Follows.run (h : Follows key row edits m t) (more : List (Edit κ α)) :
    ∃ m', Follows key row (edits ++ more) m' (more.foldl (Edit.apply key row) t) := by
  induction more generalizing edits m t with
  | nil => exact ⟨m, by rwa [List.append_nil]⟩
  | cons e more ih =>
    obtain ⟨m', next⟩ := h.step e
    rw [List.append_cons, List.foldl_cons]
    exact ih next

end Follows

/-! ### Listings -/

/-- The records of a client, each once, ordered by date; those of one date as their keys came. -/
structure Chronicle {α : Type} (key : α → String × String) (date : α → Instant)
    (ahead : Instant → Instant → Prop) (edits : List (Edit (String × String) α))
    (client : String) (listing : List α) : Prop where
  once : listing.Nodup
  complete : ∀ a, a ∈ listing ↔ (key a).2 = client ∧ Latest key edits a
  ordered : listing.Pairwise fun a b =>
    ahead (date a) (date b) ∨ date a = date b ∧ Precedes key edits (key a) (key b)

theorem Latest.mem {κ α : Type} {key : α → κ} {edits : List (Edit κ α)} {a : α}
    (latest : Latest key edits a) : .write a ∈ edits := by
  obtain ⟨before, after, rfl, -⟩ := latest
  exact List.mem_append_right _ List.mem_cons_self

theorem Follows.chronicle {α ρ : Type} {key : α → String × String} {row : α → ρ}
    {edits : List (Edit (String × String) α)} {m : String × String → Option α}
    {t : Table (String × String) ρ} (h : Follows key row edits m t) {date : α → Instant}
    {shown : α → α} {ahead : Instant → Instant → Prop}
    {le : (String × String) × ρ → (String × String) × ρ → Bool}
    {read : (String × String) × ρ → Except RecordError α} (client : String)
    (short : ∀ a, .write a ∈ edits → (date a).HasShortYear)
    (trans : ∀ d e f, le d e → le e f → le d f) (total : ∀ d e, le d e || le e d)
    (tri : ∀ s t, ahead s t ∨ s = t ∨ ahead t s)
    (sorts : ∀ a b, (date a).HasShortYear → (date b).HasShortYear →
      (le (key a, row a) (key b, row b) ↔ ¬ahead (date b).shown (date a).shown))
    (reads : ∀ a, (date a).HasShortYear → read (key a, row a) = .ok (shown a)) :
    ∃ own, ((t.entries.filter fun e => e.1.2 == client).mergeSort le).mapM read =
        .ok (own.map shown) ∧
      Chronicle key (fun a => (date a).shown) ahead edits client own := by
  obtain ⟨own, rows, nodup, mem⟩ := h.exists_rows (fun k => k.2 == client) (.refl _)
  have complete : ∀ a, a ∈ own ↔ (key a).2 = client ∧ Latest key edits a := by
    intro a
    rw [mem, beq_iff_eq, h.latest]
  have dated : ∀ a ∈ own, (date a).HasShortYear :=
    fun a inside => short a ((complete a).1 inside).2.mem
  have placed : own.Pairwise fun a b => Precedes key edits (key a) (key b) := by
    have keys := h.arrivals.placed.sublist
      ((List.filter_sublist (p := fun e => e.1.2 == client)).map Prod.fst)
    rw [rows, List.map_map] at keys
    exact List.pairwise_map.1 keys
  obtain ⟨sorted, same, perm, ordered⟩ := exists_mergeSort_map trans total placed
  refine ⟨sorted, ?_, perm.nodup_iff.2 nodup, fun a => ?_, ?_⟩
  · rw [rows, same, mapM_eq_ok_iff, List.map_map, List.map_map]
    exact List.map_congr_left fun a inside => reads a (dated a (perm.mem_iff.1 inside))
  · rw [perm.mem_iff, complete]
  · refine ordered.imp_of_mem fun {a b} inside inside' => ?_
    have shortA := dated a (perm.mem_iff.1 inside)
    have shortB := dated b (perm.mem_iff.1 inside')
    rw [sorts a b shortA shortB, sorts b a shortB shortA]
    rintro ⟨order, tie⟩
    rcases tri (date a).shown (date b).shown with first | same | last
    · exact .inl first
    · by_cases first : ahead (date a).shown (date b).shown
      · exact .inl first
      · exact .inr ⟨same, tie first⟩
    · exact absurd last order

namespace Records

/-! ### Calls as edits -/

def Call.snapshotEdit : Call → Edit (String × String) Snapshot
  | .putSnapshot s => .write s
  | .dropSnapshot thread client => .erase (thread, client)
  | _ => .none

def Call.messageEdit : Call → Edit (String × String) Message
  | .putMessage m => .write m
  | _ => .none

/-- The records after calls. -/
def after (r : Records) (calls : List Call) : Records :=
  calls.foldl (fun r call => (r.perform call).2) r

theorem perform_tables (r : Records) (call : Call) :
    (r.perform call).2.snapshots =
        call.snapshotEdit.apply Snapshot.key Snapshot.row r.snapshots ∧
      (r.perform call).2.messages = call.messageEdit.apply Message.key Message.row r.messages := by
  cases call with
  | register c =>
    rw [perform, addClient]
    split
    · next found =>
      split at found
      · cases found
      · cases found
        exact ⟨rfl, rfl⟩
    · exact ⟨rfl, rfl⟩
  | reopen =>
    have same : (r.perform .reopen).2 = r := r.reopen_file
    rw [same]
    exact ⟨rfl, rfl⟩
  | _ => exact ⟨rfl, rfl⟩

theorem after_tables (r : Records) (calls : List Call) :
    (r.after calls).snapshots = (calls.map Call.snapshotEdit).foldl
        (Edit.apply Snapshot.key Snapshot.row) r.snapshots ∧
      (r.after calls).messages = (calls.map Call.messageEdit).foldl
        (Edit.apply Message.key Message.row) r.messages := by
  induction calls generalizing r with
  | nil => exact ⟨rfl, rfl⟩
  | cons call calls ih =>
    obtain ⟨snapshots, messages⟩ := r.perform_tables call
    rw [List.map_cons, List.foldl_cons, List.map_cons, List.foldl_cons, ← snapshots, ← messages]
    exact ih _

theorem snapshots_chronological (calls : List Call) (client : String)
    (short : ∀ s, .putSnapshot s ∈ calls → s.updated.HasShortYear) :
    ∃ own, (after {} calls).snapshotsOf client = .ok (own.map Snapshot.shown) ∧
      Chronicle Snapshot.key (fun s => s.updated.shown) (fun s t => t < s)
        (calls.map Call.snapshotEdit) client own := by
  obtain ⟨m, h⟩ := (follows_nil Snapshot.key Snapshot.row).run (calls.map Call.snapshotEdit)
  rw [snapshotsOf, snapshotRows, (after_tables {} calls).1]
  refine h.chronicle client (fun s mem => ?_) ?_ ?_ (fun s t => ?_) ?_ fun s short => ?_
  · obtain ⟨call, inside, same⟩ := List.mem_map.1 mem
    cases call with
    | putSnapshot s' =>
      cases same
      exact short s inside
    | _ => cases same
  · intro d e f first second
    simp only [decide_eq_true_eq] at first second ⊢
    exact String.le_trans second first
  · intro d e
    simp only [Bool.or_eq_true, decide_eq_true_eq]
    exact String.le_total _ _
  · rcases Instant.lt_trichotomy s t with before | same | behind
    · exact .inr (.inr before)
    · exact .inr (.inl same)
    · exact .inl behind
  · intro s t short short'
    rw [decide_eq_true_eq, ← Instant.storedText_lt_iff_shown short short']
    exact String.not_lt.symm
  · rw [readSnapshot, Snapshot.row, readDate_of_short 3 short]
    rfl

theorem messages_chronological (calls : List Call) (client : String)
    (short : ∀ m, .putMessage m ∈ calls → m.date.HasShortYear) :
    ∃ own, (after {} calls).messagesOf client = .ok (own.map Message.shown) ∧
      Chronicle Message.key (fun m => m.date.shown) (fun s t => s < t)
        (calls.map Call.messageEdit) client own := by
  obtain ⟨m, h⟩ := (follows_nil Message.key Message.row).run (calls.map Call.messageEdit)
  rw [messagesOf, messageRows, (after_tables {} calls).2]
  refine h.chronicle client (fun e mem => ?_) ?_ ?_ Instant.lt_trichotomy ?_ fun e short => ?_
  · obtain ⟨call, inside, same⟩ := List.mem_map.1 mem
    cases call with
    | putMessage e' =>
      cases same
      exact short e inside
    | _ => cases same
  · intro d e f first second
    simp only [decide_eq_true_eq] at first second ⊢
    exact String.le_trans first second
  · intro d e
    simp only [Bool.or_eq_true, decide_eq_true_eq]
    exact String.le_total _ _
  · intro e f short short'
    rw [decide_eq_true_eq, ← Instant.storedText_lt_iff_shown short' short]
    exact String.not_lt.symm
  · rw [readMessage, Message.row, readDate_of_short 3 short]
    rfl

/-- Listings are in the order of what calendar and clock show, which is that of the instants unless
one of them is a leap second within a minute: snapshots the newest first, inbox entries the
oldest. -/
theorem listings_chronological :
    (∀ s t : Instant, s.HasShortYear → t.HasShortYear →
      (Utf8.ofText s.storedText < Utf8.ofText t.storedText ↔ s.shown < t.shown)) ∧
    (∀ t : Instant, t.shown = t ↔ t.Regular) ∧
    ∀ (calls : List Call) (client : String),
      ((∀ s, .putSnapshot s ∈ calls → s.updated.HasShortYear) →
        ∃ own, (after {} calls).snapshotsOf client = .ok (own.map Snapshot.shown) ∧
          Chronicle Snapshot.key (fun s => s.updated.shown) (fun s t => t < s)
            (calls.map Call.snapshotEdit) client own) ∧
      ((∀ m, .putMessage m ∈ calls → m.date.HasShortYear) →
        ∃ own, (after {} calls).messagesOf client = .ok (own.map Message.shown) ∧
          Chronicle Message.key (fun m => m.date.shown) (fun s t => s < t)
            (calls.map Call.messageEdit) client own) :=
  ⟨fun _ _ => Instant.storedText_bytes_lt_iff, fun _ => Instant.shown_eq_self_iff,
    fun calls client => ⟨snapshots_chronological calls client, messages_chronological calls client⟩⟩

/-- A quarter of a second into a leap second. -/
def leap : Instant := ⟨1483228799, 1250000000, by decide, by decide, by decide⟩

/-- A tie, records that are replaced, one that leaves and comes back, and a leap second. -/
def busyDay : List Call := [
  .putSnapshot ⟨"a", "me", [1], .epoch⟩, .putSnapshot ⟨"b", "me", [2], .epoch⟩,
  .putSnapshot ⟨"c", "me", [3], .epoch⟩, .putSnapshot ⟨"d", "me", [4], leap⟩,
  .dropSnapshot "a" "me", .putSnapshot ⟨"b", "me", [5], .epoch⟩,
  .putSnapshot ⟨"a", "me", [6], .epoch⟩,
  .putMessage ⟨"m", "peer", "me", leap⟩, .putMessage ⟨"n", "peer", "me", .epoch⟩,
  .putMessage ⟨"o", "peer", "you", .epoch⟩, .putMessage ⟨"m", "other", "me", .epoch⟩]

theorem busyDay_rows :
    (after {} busyDay).snapshotRows "me" = [
        (("d", "me"), ⟨[4], "2016-12-31T23:59:60.250000000Z"⟩),
        (("b", "me"), ⟨[5], "1970-01-01T00:00:00.000000000Z"⟩),
        (("c", "me"), ⟨[3], "1970-01-01T00:00:00.000000000Z"⟩),
        (("a", "me"), ⟨[6], "1970-01-01T00:00:00.000000000Z"⟩)] ∧
      (after {} busyDay).messageRows "me" = [
        (("m", "me"), ⟨"other", "1970-01-01T00:00:00.000000000Z"⟩),
        (("n", "me"), ⟨"peer", "1970-01-01T00:00:00.000000000Z"⟩)] := by
  have snapshots : (after {} busyDay).snapshots.entries.filter (fun e => e.1.2 == "me") = [
      (("b", "me"), ⟨[5], "1970-01-01T00:00:00.000000000Z"⟩),
      (("c", "me"), ⟨[3], "1970-01-01T00:00:00.000000000Z"⟩),
      (("d", "me"), ⟨[4], "2016-12-31T23:59:60.250000000Z"⟩),
      (("a", "me"), ⟨[6], "1970-01-01T00:00:00.000000000Z"⟩)] := by decide +kernel
  have messages : (after {} busyDay).messages.entries.filter (fun e => e.1.2 == "me") = [
      (("m", "me"), ⟨"other", "1970-01-01T00:00:00.000000000Z"⟩),
      (("n", "me"), ⟨"peer", "1970-01-01T00:00:00.000000000Z"⟩)] := by decide +kernel
  rw [snapshotRows, messageRows, snapshots, messages]
  simp [List.mergeSort, List.MergeSort.Internal.splitInTwo]

theorem busyDay_listed :
    Utf8.ofText Instant.epoch.storedText < Utf8.ofText leap.storedText ∧
      (∃ own : List Snapshot, own.map Snapshot.shown = [⟨"d", "me", [4], leap⟩,
          ⟨"b", "me", [5], .epoch⟩, ⟨"c", "me", [3], .epoch⟩, ⟨"a", "me", [6], .epoch⟩] ∧
        Chronicle Snapshot.key (fun s => s.updated.shown) (fun s t => t < s)
          (busyDay.map Call.snapshotEdit) "me" own) ∧
      ∃ own : List Message, own.map Message.shown =
          [⟨"m", "other", "me", .epoch⟩, ⟨"n", "peer", "me", .epoch⟩] ∧
        Chronicle Message.key (fun m => m.date.shown) (fun s t => s < t)
          (busyDay.map Call.messageEdit) "me" own := by
  have early : Instant.epoch.HasShortYear := ⟨by decide, by decide⟩
  have late : leap.HasShortYear := ⟨by decide, by decide⟩
  obtain ⟨bytes, -, listed⟩ := listings_chronological
  obtain ⟨snapshots, messages⟩ := listed busyDay "me"
  refine ⟨(bytes .epoch leap early late).2 (.inl (by decide)), ?_, ?_⟩
  · obtain ⟨own, found, chronicle⟩ := snapshots fun s mem => by
      simp only [busyDay, List.mem_cons, Call.putSnapshot.injEq, reduceCtorEq, List.not_mem_nil,
        false_or, or_false] at mem
      rcases mem with rfl | rfl | rfl | rfl | rfl | rfl <;> assumption
    rw [snapshotsOf, busyDay_rows.1] at found
    exact ⟨own, (Except.ok.inj found).symm, chronicle⟩
  · obtain ⟨own, found, chronicle⟩ := messages fun m mem => by
      simp only [busyDay, List.mem_cons, Call.putMessage.injEq, reduceCtorEq, List.not_mem_nil,
        false_or, or_false] at mem
      rcases mem with rfl | rfl | rfl | rfl <;> assumption
    rw [messagesOf, busyDay_rows.2] at found
    exact ⟨own, (Except.ok.inj found).symm, chronicle⟩

/-! ### A date within a minute -/

/-- Dated in a leap second four seconds into a minute, which is before the next second. -/
def early : Instant := (Instant.of? 86164 1500000000).getD .epoch

def late : Instant := (Instant.of? 86165 400000000).getD .epoch

/-- The earlier date has the greater text and is listed behind. -/
theorem earlier_listed_behind :
    early < late ∧ early.HasShortYear ∧ late.HasShortYear ∧
    ¬Utf8.ofText early.storedText < Utf8.ofText late.storedText ∧
    (after {} [.putMessage ⟨"m", "peer", "me", early⟩,
        .putMessage ⟨"n", "peer", "me", late⟩]).messageRows "me" =
      [(("n", "me"), ⟨"peer", late.storedText⟩), (("m", "me"), ⟨"peer", early.storedText⟩)] := by
  have shortE : early.HasShortYear := ⟨by decide, by decide⟩
  have shortL : late.HasShortYear := ⟨by decide, by decide⟩
  have behind : late.storedText < early.storedText :=
    (Instant.storedText_lt_iff_shown shortL shortE).2 (by decide)
  refine ⟨by decide, shortE, shortL, ?_, ?_⟩
  · rw [Instant.storedText_bytes_lt_iff shortE shortL]
    decide
  · have entries : (after {} [.putMessage ⟨"m", "peer", "me", early⟩,
        .putMessage ⟨"n", "peer", "me", late⟩]).messages.entries.filter (fun e => e.1.2 == "me") =
        [(("m", "me"), ⟨"peer", early.storedText⟩), (("n", "me"), ⟨"peer", late.storedText⟩)] := rfl
    rw [messageRows, entries, List.mergeSort]
    simp [List.MergeSort.Internal.splitInTwo, String.not_le.2 behind]

end Records

end Relay
