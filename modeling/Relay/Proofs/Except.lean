/-!
# Results

Lists of results, and what a result that did not fail is.
-/

namespace Relay

theorem toOption_eq_some_iff {ε α : Type} {r : Except ε α} {a : α} :
    r.toOption = some a ↔ r = .ok a := by
  cases r <;> simp [Except.toOption]

theorem mapM_eq_ok_iff {α β ε : Type} {f : α → Except ε β} {as : List α} {bs : List β} :
    as.mapM f = .ok bs ↔ as.map f = bs.map .ok := by
  induction as generalizing bs with
  | nil =>
    rw [List.mapM_nil]
    cases bs with
    | nil => simp [pure, Except.pure]
    | cons b bs => simp [pure, Except.pure]
  | cons a as ih =>
    rw [List.mapM_cons]
    cases hf : f a with
    | error e => cases bs <;> simp [bind, Except.bind, hf]
    | ok b =>
      cases hm : as.mapM f with
      | error e =>
        have none : ∀ bs : List β, as.map f ≠ bs.map .ok := by
          intro bs h
          rw [← ih, hm] at h
          cases h
        cases bs with
        | nil => simp [bind, Except.bind]
        | cons b' bs => simp [bind, Except.bind, hf, none bs]
      | ok bs' =>
        have same := ih.1 hm
        have inj : Function.Injective (Except.ok : β → Except ε β) := fun _ _ h => by cases h; rfl
        cases bs with
        | nil => simp [bind, Except.bind, pure, Except.pure]
        | cons b' bs =>
          simp only [bind, Except.bind, pure, Except.pure, Except.ok.injEq, List.cons.injEq,
            List.map_cons, hf, same]
          rw [List.map_inj_right fun _ _ h => inj h]

theorem exists_mapM_eq_ok {α β ε : Type} {f : α → Except ε β} {as : List α}
    (h : ∀ a ∈ as, ∃ b, f a = .ok b) : ∃ bs, as.mapM f = .ok bs := by
  induction as with
  | nil => exact ⟨[], rfl⟩
  | cons a as ih =>
    obtain ⟨b, hb⟩ := h a List.mem_cons_self
    obtain ⟨bs, hbs⟩ := ih fun a mem => h a (List.mem_cons_of_mem _ mem)
    refine ⟨b :: bs, ?_⟩
    rw [mapM_eq_ok_iff] at hbs ⊢
    rw [List.map_cons, List.map_cons, hb, hbs]

/-- Where all that can go wrong is one error, it does if it does for any. -/
theorem mapM_eq_error {α β ε : Type} {f : α → Except ε β} {as : List α} {e : ε}
    (fails : ∀ a ∈ as, ∀ e', f a = .error e' → e' = e) (some : ∃ a ∈ as, f a = .error e) :
    as.mapM f = .error e := by
  induction as with
  | nil =>
    obtain ⟨a, mem, _⟩ := some
    cases mem
  | cons a as ih =>
    rw [List.mapM_cons]
    cases here : f a with
    | error e' =>
      obtain rfl := fails a List.mem_cons_self e' here
      rfl
    | ok b =>
      obtain ⟨a', mem, failed⟩ := some
      obtain rfl | mem := List.mem_cons.1 mem
      · rw [here] at failed
        cases failed
      · have later := ih (fun a mem => fails a (List.mem_cons_of_mem _ mem)) ⟨a', mem, failed⟩
        simp only [later, bind, Except.bind]

end Relay
