import Relay.Content.Disk

/-!
# Changes of a directory

`a.Differs change b` says that a directory has become another in no other way than allowed:
whatever stood in its place stands there still, and the entry under each name is the same or has
changed as `change` says. Writing and removing a file change one entry.
-/

namespace Relay.Area

variable {κ : Type} [DecidableEq κ]

/-- A change under a name: what stood there before and what stands there after. -/
abbrev Change (κ : Type) := κ → Option Entry → Option Entry → Prop

def Differs (change : Change κ) : Area κ → Area κ → Prop
  | .missing, .missing => True
  | .plainFile, .plainFile => True
  | .directory before, .directory after =>
    ∀ k, after.get? k = before.get? k ∨ change k (before.get? k) (after.get? k)
  | _, _ => False

variable {a b c : Area κ} {change change' : Change κ}

theorem Differs.refl (change : Change κ) (a : Area κ) : a.Differs change a := by
  cases a with
  | directory entries => exact fun k => .inl rfl
  | _ => trivial

theorem Differs.imp (h : a.Differs change b)
    (weaker : ∀ k, change k (a.get? k) (b.get? k) → change' k (a.get? k) (b.get? k)) :
    a.Differs change' b := by
  cases a <;> cases b <;> try exact h
  exact fun k => (h k).imp_right (weaker k)

theorem Differs.mono (h : a.Differs change b)
    (weaker : ∀ k old new, change k old new → change' k old new) : a.Differs change' b :=
  h.imp fun k => weaker k _ _

theorem Differs.trans (h : a.Differs change b) (h' : b.Differs change c)
    (closed : ∀ k old mid new, change k old mid → change k mid new → change k old new) :
    a.Differs change c := by
  cases a with
  | missing => cases b <;> cases c <;> trivial
  | plainFile => cases b <;> cases c <;> trivial
  | directory before =>
    cases b with
    | directory between =>
      cases c with
      | directory after =>
        intro k
        rcases h k with first | first
        · rw [← first]
          exact h' k
        · rcases h' k with second | second
          · exact .inr (second ▸ first)
          · exact .inr (closed k _ _ _ first second)
      | _ => cases h'
    | _ => cases h

theorem Differs.get? (h : a.Differs change b) (k : κ) :
    b.get? k = a.get? k ∨ change k (a.get? k) (b.get? k) := by
  cases a with
  | directory before =>
    cases b with
    | directory after => exact h k
    | _ => cases h
  | missing => cases b <;> first | exact .inl rfl | cases h
  | plainFile => cases b <;> first | exact .inl rfl | cases h

/-! ### What a file step finds and does -/

theorem contains_eq_true_iff {k : κ} : a.contains k = .ok true ↔ a.get? k ≠ none := by
  cases a with
  | directory entries =>
    simp [contains, Area.get?, Table.contains, Option.isSome_iff_ne_none]
  | missing => simp [contains, Area.get?]
  | plainFile => simp [contains, Area.get?]

theorem get?_of_not_contains {k : κ} (h : a.contains k = .ok false) : a.get? k = none := by
  cases a with
  | directory entries => simpa [contains, Area.get?, Table.contains] using h
  | _ => rfl

theorem mem_keys {k : κ} (there : a.get? k ≠ none) : k ∈ a.keys := by
  cases a with
  | directory entries =>
    exact Classical.not_not.1 fun missing => there ((entries.get?_eq_none_iff k).2 missing)
  | _ => exact absurd rfl there

theorem read_eq_ok_iff {k : κ} {bytes : Bytes} :
    a.read k = .ok bytes ↔ a.get? k = some (.file bytes) := by
  cases a with
  | directory entries =>
    simp only [read, Area.get?]
    split
    · next none => simp [none]
    · next found => simp [found]
    · next found => simp [found]
  | missing => simp [read, Area.get?]
  | plainFile => simp [read, Area.get?]

theorem get?_of_notFound {k : κ} (h : a.read k = .error .notFound) : a.get? k = none := by
  unfold read at h
  split at h
  · rfl
  · cases h
  · split at h
    · next free => exact free
    · cases h
    · cases h

def Written (k : κ) (bytes : Bytes) : Change κ := fun k' _ new =>
  k' = k ∧ new = some (.file bytes)

theorem write_eq_ok {k : κ} {bytes : Bytes} (h : a.write k bytes = .ok b) :
    a.Differs (Written k bytes) b ∧ b.get? k = some (.file bytes) := by
  cases a with
  | directory entries =>
    have put : b = .directory (entries.put k (.file bytes)) := by
      simp only [write] at h
      split at h
      · cases h
      · cases h
        rfl
    subst put
    constructor
    · intro k'
      rw [Table.get?_put]
      split
      · next same => exact .inr ⟨same, rfl⟩
      · exact .inl rfl
    · exact (Table.get?_put _ _ _ _).trans (if_pos rfl)
  | _ => cases h

def Removed (k : κ) : Change κ := fun k' _ new => k' = k ∧ new = none

theorem remove_eq_ok {k : κ} (h : a.remove k = .ok b) :
    a.Differs (Removed k) b ∧ b.get? k = none := by
  cases a with
  | directory entries =>
    have erased : b = .directory (entries.erase k) := by
      simp only [remove] at h
      split at h
      · cases h
      · cases h
      · cases h
        rfl
    subst erased
    constructor
    · intro k'
      rw [Table.get?_erase]
      split
      · next same => exact .inr ⟨same, rfl⟩
      · exact .inl rfl
    · exact (Table.get?_erase _ _ _).trans (if_pos rfl)
  | _ => cases h

theorem remove_of_file {k : κ} {bytes : Bytes} (h : a.get? k = some (.file bytes)) :
    ∃ b, a.remove k = .ok b := by
  cases a with
  | directory entries =>
    have found : entries.get? k = some (.file bytes) := h
    exact ⟨.directory (entries.erase k), by simp only [remove, found]⟩
  | _ => cases h

end Relay.Area
