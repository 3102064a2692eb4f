/-!
# Tables

A finite map that remembers the order in which its keys arrived. Writing to a key that is
present replaces the value where it stands; a key that was erased and comes back stands last.
`get?_put` and `get?_erase` say what a reader sees, `keys_put` in which order.
-/

namespace Relay

variable {κ α : Type} [DecidableEq κ]

/-! ### Lists of pairs -/

namespace Entries

def lookup (k : κ) : List (κ × α) → Option α
  | [] => none
  | e :: rest => if e.1 = k then some e.2 else lookup k rest

def put (k : κ) (a : α) : List (κ × α) → List (κ × α)
  | [] => [(k, a)]
  | e :: rest => if e.1 = k then (k, a) :: rest else e :: put k a rest

def erase (k : κ) (es : List (κ × α)) : List (κ × α) := es.filter fun e => !decide (e.1 = k)

theorem lookup_put (k k' : κ) (a : α) (es : List (κ × α)) :
    lookup k' (put k a es) = if k' = k then some a else lookup k' es := by
  induction es with
  | nil => by_cases h : k' = k <;> simp [put, lookup, h, Ne.symm]
  | cons e rest ih =>
    by_cases he : e.1 = k
    · by_cases h : k' = k
      · simp [put, lookup, he, h]
      · simp [put, lookup, he, h, Ne.symm h]
    · by_cases h : e.1 = k'
      · have : k' ≠ k := h ▸ he
        simp [put, lookup, h, this]
      · simp [put, lookup, he, h, ih]

theorem lookup_erase (k k' : κ) (es : List (κ × α)) :
    lookup k' (erase k es) = if k' = k then none else lookup k' es := by
  induction es with
  | nil => simp [erase, lookup]
  | cons e rest ih =>
    by_cases he : e.1 = k
    · rw [show erase k (e :: rest) = erase k rest by simp [erase, he], ih]
      by_cases h : k' = k
      · simp [h]
      · simp [lookup, he, h, Ne.symm h]
    · rw [show erase k (e :: rest) = e :: erase k rest by simp [erase, he], lookup, lookup, ih]
      by_cases h : e.1 = k'
      · have : k' ≠ k := h ▸ he
        simp [h, this]
      · simp [h]

theorem erase_put (k : κ) (a : α) (es : List (κ × α)) : erase k (put k a es) = erase k es := by
  induction es with
  | nil => simp [put, erase]
  | cons e rest ih =>
    unfold erase at ih ⊢
    by_cases h : e.1 = k
    · simp [put, h]
    · simp [put, h, ih]

theorem lookup_eq_none_iff (k : κ) (es : List (κ × α)) :
    lookup k es = none ↔ k ∉ es.map Prod.fst := by
  induction es with
  | nil => simp [lookup]
  | cons e rest ih =>
    by_cases h : e.1 = k
    · simp [lookup, h]
    · simp [lookup, h, ih, Ne.symm h]

theorem erase_of_lookup {k : κ} {es : List (κ × α)} (missing : lookup k es = none) :
    erase k es = es := by
  rw [lookup_eq_none_iff, List.mem_map] at missing
  refine List.filter_eq_self.2 fun e mem => ?_
  simpa using fun same => missing ⟨e, mem, same⟩

theorem mem_iff_lookup {e : κ × α} {es : List (κ × α)} (h : (es.map Prod.fst).Nodup) :
    e ∈ es ↔ lookup e.1 es = some e.2 := by
  induction es with
  | nil => simp [lookup]
  | cons f rest ih =>
    rw [List.map_cons, List.nodup_cons] at h
    obtain ⟨new, h⟩ := h
    rw [List.mem_cons, lookup, ih h]
    by_cases same : f.1 = e.1
    · have missing : lookup e.1 rest = none := (lookup_eq_none_iff _ _).2 (same ▸ new)
      rw [if_pos same, missing, Option.some.injEq, Prod.ext_iff]
      simp [same, eq_comm]
    · have other : e ≠ f := fun h => same (h ▸ rfl)
      simp [same, other]

/-- A key that is present keeps its place, a new one comes last. -/
theorem map_fst_put (k : κ) (a : α) (es : List (κ × α)) :
    (put k a es).map Prod.fst =
      if k ∈ es.map Prod.fst then es.map Prod.fst else es.map Prod.fst ++ [k] := by
  induction es with
  | nil => simp [put]
  | cons e rest ih =>
    by_cases h : e.1 = k
    · simp [put, h]
    · rw [put, if_neg h, List.map_cons, ih, List.map_cons]
      by_cases hm : k ∈ rest.map Prod.fst
      · rw [if_pos hm, if_pos (List.mem_cons_of_mem _ hm)]
      · have : k ∉ e.1 :: rest.map Prod.fst := by
          rw [List.mem_cons, not_or]; exact ⟨Ne.symm h, hm⟩
        rw [if_neg hm, if_neg this, List.cons_append]

theorem nodup_put {k : κ} {a : α} {es : List (κ × α)} (h : (es.map Prod.fst).Nodup) :
    ((put k a es).map Prod.fst).Nodup := by
  rw [map_fst_put]
  split
  · exact h
  · next hk =>
    rw [List.nodup_append]
    refine ⟨h, List.pairwise_singleton _ _, ?_⟩
    intro x hx y hy hxy
    exact hk (List.mem_singleton.1 hy ▸ hxy ▸ hx)

theorem nodup_erase {k : κ} {es : List (κ × α)} (h : (es.map Prod.fst).Nodup) :
    ((erase k es).map Prod.fst).Nodup :=
  h.sublist (List.Sublist.map _ List.filter_sublist)

end Entries

/-! ### Tables -/

structure Table (κ α : Type) where
  entries : List (κ × α) := []
  nodup : (entries.map Prod.fst).Nodup := by exact List.Pairwise.nil

namespace Table

instance : EmptyCollection (Table κ α) := ⟨{}⟩

instance : Inhabited (Table κ α) := ⟨∅⟩

def get? (t : Table κ α) (k : κ) : Option α := Entries.lookup k t.entries

def contains (t : Table κ α) (k : κ) : Bool := (t.get? k).isSome

def keys (t : Table κ α) : List κ := t.entries.map Prod.fst

def values (t : Table κ α) : List α := t.entries.map Prod.snd

def size (t : Table κ α) : Nat := t.entries.length

def put (t : Table κ α) (k : κ) (a : α) : Table κ α :=
  ⟨Entries.put k a t.entries, Entries.nodup_put t.nodup⟩

def erase (t : Table κ α) (k : κ) : Table κ α :=
  ⟨Entries.erase k t.entries, Entries.nodup_erase t.nodup⟩

omit [DecidableEq κ] in
@[ext] theorem ext {t t' : Table κ α} (h : t.entries = t'.entries) : t = t' := by
  cases t; cases t'; cases h; rfl

@[simp] theorem get?_empty (k : κ) : (∅ : Table κ α).get? k = none := rfl

theorem get?_put (t : Table κ α) (k k' : κ) (a : α) :
    (t.put k a).get? k' = if k' = k then some a else t.get? k' :=
  Entries.lookup_put k k' a t.entries

theorem get?_erase (t : Table κ α) (k k' : κ) :
    (t.erase k).get? k' = if k' = k then none else t.get? k' :=
  Entries.lookup_erase k k' t.entries

theorem erase_put (t : Table κ α) (k : κ) (a : α) : (t.put k a).erase k = t.erase k :=
  ext (Entries.erase_put k a t.entries)

theorem get?_eq_none_iff (t : Table κ α) (k : κ) : t.get? k = none ↔ k ∉ t.keys :=
  Entries.lookup_eq_none_iff k t.entries

theorem erase_of_get? {t : Table κ α} {k : κ} (missing : t.get? k = none) : t.erase k = t :=
  ext (Entries.erase_of_lookup missing)

theorem mem_entries_iff {t : Table κ α} {e : κ × α} : e ∈ t.entries ↔ t.get? e.1 = some e.2 :=
  Entries.mem_iff_lookup t.nodup

theorem keys_put (t : Table κ α) (k : κ) (a : α) :
    (t.put k a).keys = if k ∈ t.keys then t.keys else t.keys ++ [k] :=
  Entries.map_fst_put k a t.entries

end Table

end Relay
