import Relay.Cafe.Basic
import Relay.Proofs.Content.Pins

/-!
# Releasing objects

A request to release an object looks up its pin and removes it if it is direct or recursive. One
lemma says what the request can come to (`Cafe.releases_release`); what it answers, what it leaves
alone, that doing it twice is doing it once, and that the object can be pinned anew, is read off it
(`Cafe.pin_released`).
-/

namespace Relay

namespace Area

variable {κ : Type} [DecidableEq κ] {a b : Area κ}

theorem read_of_removed {k : κ} (h : a.remove k = .ok b) : b.read k = .error .notFound := by
  have free := (remove_eq_ok h).2
  cases a with
  | directory entries =>
    cases b with
    | directory after =>
      have free : after.get? k = none := free
      simp only [read, free]
    | _ => cases (remove_eq_ok h).1
  | _ => cases h

end Area

namespace ObjectStore

variable {s : ObjectStore} {id : ContentId} {mode : PinMode}

def withPins (s : ObjectStore) (pins : Area ContentId) : ObjectStore :=
  { s with disk := { s.disk with pins } }

/-- The pin reads as one that can be removed. -/
def Marked (s : ObjectStore) (id : ContentId) : Prop :=
  PinReads s id .direct ∨ PinReads s id .recursive

/-- There is no pin to remove: its text is not recognised or there is none, and none of the file
steps that tell so fails. -/
def Unmarked (s : ObjectStore) (id : ContentId) : Prop :=
  PinReads s id .notPinned ∧ s.Spared 1 ∨ s.Unpinned id ∧ s.Spared 2

theorem Spared.first (h : s.Spared 2) : s.Spared 1 := (spared_two_iff.1 h).1

theorem marked_of_pinned (reads : PinReads s id mode) (pinned : mode.isPinned = true) :
    s.Marked id := by
  cases mode with
  | notPinned => cases pinned
  | direct => exact .inl reads
  | recursive => exact .inr reads

theorem Marked.reads (h : s.Marked id) : ∃ mode, mode.isPinned = true ∧ PinReads s id mode :=
  h.elim (fun direct => ⟨_, rfl, direct⟩) fun recursive => ⟨_, rfl, recursive⟩

theorem Marked.not_notPinned (h : s.Marked id) : ¬PinReads s id .notPinned := by
  obtain ⟨mode, pinned, reads⟩ := h.reads
  intro other
  cases reads.unique other
  cases pinned

theorem Marked.not_unmarked (h : s.Marked id) : ¬s.Unmarked id := by
  obtain ⟨mode, -, reads⟩ := h.reads
  rintro (⟨other, -⟩ | ⟨unpinned, -⟩)
  · exact h.not_notPinned other
  · exact reads.not_unpinned unpinned

theorem Unreadable.not_marked (h : s.Unreadable id) : ¬s.Marked id := by
  intro marked
  obtain ⟨mode, -, reads⟩ := marked.reads
  exact h.2 mode reads

theorem Unreadable.not_unmarked (h : s.Unreadable id) : ¬s.Unmarked id := by
  rintro (⟨other, -⟩ | ⟨unpinned, -⟩)
  · exact h.2 _ other
  · exact h.1 unpinned

theorem Unmarked.spared (h : s.Unmarked id) : s.Spared 1 :=
  h.elim And.right fun unpinned => unpinned.2.first

/-- Without a pin, or with one whose text is not recognised, an object is not reported pinned. -/
theorem not_reported (h : PinReads s id .notPinned ∨ s.Unpinned id)
    (reported : (status id s.calm).1 = .ok (some mode)) : mode = .notPinned := by
  refine Classical.byContradiction fun pinned => ?_
  have reads : PinReads s id mode := (status_calm_iff pinned).1 reported
  rcases h with other | unpinned
  · exact pinned (reads.unique other)
  · exact reads.not_unpinned unpinned

end ObjectStore

namespace Cafe

open ObjectStore

variable {c c' : Cafe} {id : ContentId}

/-! ### What a release comes to -/

/-- Nothing has changed; some file steps lie behind. -/
def Idles (c c' : Cafe) : Prop := ∃ n, c' = { c with content := c.content.past n }

/-- A release with some way to remove a pin. -/
def releaseBy (unpin : ContentId → Op Unit) (id : ContentId) (c : Cafe) :
    Except RequestError Nat × Cafe :=
  match c.withContent (status id) with
  | (.error e, c) => (.error (ofContent e), c)
  | (.ok mode, c) =>
    if mode.any PinMode.isPinned then
      let (r, c) := c.withContent (unpin id)
      ((r.map fun _ => 1).mapError ofContent, c)
    else (.ok 0, c)

theorem release_eq (id : ContentId) (c : Cafe) :
    c.release id = c.releaseBy ObjectStore.unpin id := rfl

/-- Where no pin is removed it does not matter how pins are removed. -/
theorem releaseBy_of_zero (h : (c.release id).1 = .ok 0) (unpin : ContentId → Op Unit) :
    c.releaseBy unpin id = c.release id := by
  rw [release_eq] at h ⊢
  unfold releaseBy at h ⊢
  cases ran : c.withContent (status id) with
  | mk r d =>
    rw [ran] at h
    cases r with
    | error e => cases h
    | ok mode =>
      dsimp only at h ⊢
      cases pinned : mode.any PinMode.isPinned with
      | false => rfl
      | true =>
        rw [pinned, if_pos rfl] at h
        cases removed : (d.withContent (ObjectStore.unpin id)).1 with
        | ok a => rw [removed] at h; cases h
        | error e => rw [removed] at h; cases h

theorem release_of_error {e : ObjectError} {s : ObjectStore}
    (told : status id c.content = (.error e, s)) :
    c.release id = (.error (ofContent e), { c with content := s }) := by
  rw [release, withContent, told]

theorem release_of_unmarked {mode : Option PinMode} {s : ObjectStore}
    (told : status id c.content = (.ok mode, s)) (unpinned : mode.any PinMode.isPinned = false) :
    c.release id = (.ok 0, { c with content := s }) := by
  simp only [release, withContent, told, unpinned, Bool.false_eq_true, if_false]

theorem release_of_marked {mode : PinMode} {s : ObjectStore}
    (told : status id c.content = (.ok (some mode), s)) (pinned : mode.isPinned = true) :
    c.release id = (((ObjectStore.unpin id s).1.map fun _ => 1).mapError ofContent,
      { c with content := (ObjectStore.unpin id s).2 }) := by
  simp only [release, withContent, told, Option.any_some, pinned, if_true]
  rfl

inductive Releases (id : ContentId) (c : Cafe) : Except RequestError Nat → Cafe → Prop
  | removed (pins : Area ContentId) (marked : c.content.Marked id) (spared : c.content.Spared 2)
      (removed : c.content.disk.pins.remove id = .ok pins) :
      Releases id c (.ok 1) { c with content := (c.content.past 2).withPins pins }
  | idle (n : Nat) (unmarked : c.content.Unmarked id) :
      Releases id c (.ok 0) { c with content := c.content.past n }
  | failed (e : RequestError) (n : Nat) (unremoved : ¬(c.content.Marked id ∧ c.content.Spared 2))
      (unlike : ¬c.content.Unmarked id) :
      Releases id c (.error e) { c with content := c.content.past n }

theorem releases_release (readable : c.content.disk.blocks ≠ .plainFile)
    (trusted : c.content.Trusted) (id : ContentId) :
    Releases id c (c.release id).1 (c.release id).2 := by
  cases ran : status id c.content with
  | mk r s =>
    have told := (told_status trusted readable id).of_eq ran
    cases told with
    | pin mode reads spared =>
      cases pinned : mode.isPinned with
      | false =>
        have same : mode = .notPinned := by
          cases mode with
          | notPinned => rfl
          | _ => cases pinned
        rw [release_of_unmarked ran pinned]
        exact .idle 1 (.inl ⟨same ▸ reads, spared⟩)
      | true =>
        have marked := marked_of_pinned reads pinned
        rw [release_of_marked ran pinned]
        have drops := drops_unpin (s := c.content.past 1) (trusted.past 1) reads
        unfold Runs at drops
        rcases drops with ⟨done, next, pins, removed, left⟩ | ⟨⟨e, stuck⟩, fails, left⟩
        · rw [done, left, past_past]
          exact .removed pins marked (spared_two_iff.2 ⟨spared, next⟩) removed
        · rw [stuck, left, past_past]
          exact .failed _ _ (fun both => fails (spared_two_iff.1 both.2).2) marked.not_unmarked
    | nothing known unpinned spared =>
      rw [release_of_unmarked ran (by cases known <;> rfl)]
      exact .idle 2 (.inr ⟨unpinned, spared⟩)
    | failed e n why =>
      rw [release_of_error ran]
      refine .failed (ofContent e) n (fun both => ?_) fun unmarked => ?_
      · obtain ⟨mode, -, reads⟩ := both.1.reads
        rcases why with unreadable | fails | ⟨unpinned, -⟩
        · exact unreadable.not_marked both.1
        · exact fails both.2.first
        · exact reads.not_unpinned unpinned
      · rcases why with unreadable | fails | ⟨unpinned, fails⟩
        · exact unreadable.not_unmarked unmarked
        · exact fails unmarked.spared
        · rcases unmarked with ⟨reads, -⟩ | ⟨-, spared⟩
          · exact reads.not_unpinned unpinned
          · exact fails spared

/-! ### What follows -/

variable {r : Except RequestError Nat}

theorem Releases.one_iff (h : Releases id c r c') :
    r = .ok 1 ↔ c.content.Marked id ∧ c.content.Spared 2 := by
  cases h with
  | removed pins marked spared removed => exact iff_of_true rfl ⟨marked, spared⟩
  | idle n unmarked =>
    exact iff_of_false (fun one => by cases one) fun both => both.1.not_unmarked unmarked
  | failed e n unremoved unlike => exact iff_of_false (fun one => by cases one) unremoved

theorem Releases.zero_iff (h : Releases id c r c') : r = .ok 0 ↔ c.content.Unmarked id := by
  cases h with
  | removed pins marked spared removed =>
    exact iff_of_false (fun zero => by cases zero) marked.not_unmarked
  | idle n unmarked => exact iff_of_true rfl unmarked
  | failed e n unremoved unlike => exact iff_of_false (fun zero => by cases zero) unlike

theorem Releases.idles (h : Releases id c r c') (other : r ≠ .ok 1) : Idles c c' := by
  cases h with
  | removed pins marked spared removed => exact absurd rfl other
  | idle n unmarked => exact ⟨n, rfl⟩
  | failed e n unremoved unlike => exact ⟨n, rfl⟩

/-- A pin may be gone, and file steps lie behind. -/
theorem Releases.frame (h : Releases id c r c') : ∃ n pins,
    c' = { c with content := (c.content.past n).withPins pins } ∧
      c.content.disk.pins.Differs (Area.Removed id) pins := by
  cases h with
  | removed pins marked spared removed =>
    exact ⟨2, pins, rfl, (Area.remove_eq_ok removed).1⟩
  | idle n unmarked => exact ⟨n, c.content.disk.pins, rfl, .refl _ _⟩
  | failed e n unremoved unlike => exact ⟨n, c.content.disk.pins, rfl, .refl _ _⟩

/-- Once an object is released it has no pin, or one whose text is not recognised. -/
theorem Releases.unpins {n : Nat} (h : Releases id c (.ok n) c') :
    n ≤ 1 ∧ (PinReads c'.content id .notPinned ∨ c'.content.Unpinned id) := by
  cases h with
  | removed pins marked spared removed =>
    exact ⟨Nat.le_refl _, .inr (Area.read_of_removed removed)⟩
  | idle n unmarked =>
    exact ⟨Nat.zero_le _, unmarked.imp (fun reads => reads.1) fun unpinned => unpinned.1⟩

theorem Releases.not_recursive {n : Nat} (h : Releases id c (.ok n) c') :
    ¬PinReads c'.content id .recursive := by
  rcases h.unpins.2 with other | unpinned
  · intro recursive
    cases recursive.unique other
  · exact fun recursive => recursive.not_unpinned unpinned

theorem Releases.blocks (h : Releases id c r c') :
    c'.content.disk.blocks = c.content.disk.blocks := by
  obtain ⟨n, pins, rfl, -⟩ := h.frame
  rfl

/-- What is released again stays as it is. -/
theorem Releases.again {n : Nat} (h : Releases id c (.ok n) c')
    (readable : c.content.disk.blocks ≠ .plainFile) {faults : List (Option IoError)}
    {next : Cafe} (same : next = { c' with content := c'.content.disturbed faults })
    (trusted : next.content.Trusted) (spared : next.content.Spared 2) :
    (next.release id).1 = .ok 0 ∧ Idles next (next.release id).2 := by
  subst same
  have unmarked : (c'.content.disturbed faults).Unmarked id :=
    h.unpins.2.imp (fun reads => ⟨reads, spared.first⟩) fun unpinned => ⟨unpinned, spared⟩
  have blocks : (c'.content.disturbed faults).disk.blocks ≠ .plainFile := h.blocks ▸ readable
  have released := releases_release (c := { c' with content := c'.content.disturbed faults })
    blocks trusted id
  have zero := released.zero_iff.2 unmarked
  exact ⟨zero, released.idles (by rw [zero]; exact fun one => by cases one)⟩

/-- Whatever else is pinned and unpinned meanwhile, an object that was released is pinned by the
mode of its codec when it is pinned again. -/
theorem Releases.pinned_again {n : Nat} (h : Releases id c (.ok n) c') (calls : List Call)
    {call : Call} {codec : Codec} {bytes : Bytes} (pins : call.act = .pin codec bytes)
    (named : id = .of codec bytes) {id' : ContentId}
    (ok : (call.run (c'.content.after calls)).1 = .ok id') : id' = id ∧
      (status id (call.run (c'.content.after calls)).2.calm).1 = .ok (some codec.pinMode) := by
  subst named
  have free : codec = .raw → ¬PinReads (c'.content.after calls) (.of .raw bytes) .recursive := by
    rintro rfl
    exact not_recursive_after rfl calls h.not_recursive
  have pinned := pinned_by_codec (s := (c'.content.after calls).disturbed call.faults) free
  rw [← pins] at pinned
  obtain ⟨rfl, reads⟩ := pinned id' ok
  exact ⟨rfl, status_calm_of_reads reads⟩

/-- A release answers 1 exactly if the pin reads as direct or recursive and no file step keeps it
from being removed, and 0 exactly if there is no such pin; then it does not try to remove one. It
changes nothing unless it answers 1, no block ever and no pin but that of the object. Released
objects are not reported pinned, releasing them again changes nothing, and if they are pinned again
it is under the same id, by the mode of its codec. -/
theorem pin_released (id : ContentId) (c : Cafe) (readable : c.content.disk.blocks ≠ .plainFile)
    (trusted : c.content.Trusted) :
    ((c.release id).1 = .ok 1 ↔ c.content.Marked id ∧ c.content.Spared 2) ∧
    ((c.release id).1 = .ok 0 ↔ c.content.Unmarked id) ∧
    ((c.release id).1 = .ok 0 →
      Idles c (c.release id).2 ∧ ∀ unpin, c.releaseBy unpin id = c.release id) ∧
    (∀ e, (c.release id).1 = .error e → Idles c (c.release id).2) ∧
    (∃ n pins, (c.release id).2 = { c with content := (c.content.past n).withPins pins } ∧
      ∀ other, other ≠ id → pins.get? other = c.content.disk.pins.get? other) ∧
    ∀ n, (c.release id).1 = .ok n →
      n ≤ 1 ∧
      (∀ mode, (status id (c.release id).2.content.calm).1 = .ok (some mode) → mode = .notPinned) ∧
      (∀ faults next,
        next = { (c.release id).2 with content := (c.release id).2.content.disturbed faults } →
        next.content.Trusted → next.content.Spared 2 →
        (next.release id).1 = .ok 0 ∧ Idles next (next.release id).2) ∧
      ∀ (calls : List Call) (call : Call) codec bytes id', call.act = .pin codec bytes →
        id = .of codec bytes →
        (call.run ((c.release id).2.content.after calls)).1 = .ok id' →
        id' = id ∧ (status id (call.run ((c.release id).2.content.after calls)).2.calm).1 =
          .ok (some codec.pinMode) := by
  have released := releases_release readable trusted id
  refine ⟨released.one_iff, released.zero_iff, fun zero => ⟨?_, releaseBy_of_zero zero⟩, ?_, ?_, ?_⟩
  · exact released.idles (by rw [zero]; exact fun one => by cases one)
  · intro e failed
    exact released.idles (by rw [failed]; exact fun one => by cases one)
  · obtain ⟨n, pins, same, differs⟩ := released.frame
    refine ⟨n, pins, same, fun other apart => ?_⟩
    exact (differs.get? other).resolve_right fun removed => apart removed.1
  · intro n ok
    rw [ok] at released
    refine ⟨released.unpins.1, fun mode => not_reported released.unpins.2, ?_, ?_⟩
    · exact fun faults next same trusted spared => released.again readable same trusted spared
    · exact fun calls call codec bytes id' pins named ok =>
        released.pinned_again calls pins named ok

/-! ### A store that someone has been at -/

/-- A raw object, with a directory in the place of its block, is pinned recursively in someone's
handwriting; the pin of another one tells nothing. The third file step is going to fail. -/
def contested : Cafe :=
  let pins : Table ContentId Entry :=
    Table.put ∅ (.of .raw [1]) (.file (Text.Utf8.ofText " recursive\n"))
  { Cafe.ofConfig {} with
    content := { disk := {
      blocks := .directory (Table.put ∅ (.of .raw [1]) .directory)
      pins := .directory (pins.put (.of .raw [2]) (.file (Text.Utf8.ofText "pinned")))
      faults := [none, none, some .isADirectory] } } }

theorem contested_released :
    contested.content.disk.blocks ≠ .plainFile ∧ contested.content.Trusted ∧
      contested.content.Marked (.of .raw [1]) ∧ contested.content.Unmarked (.of .raw [2]) ∧
      (status (.of .raw [1]) (({ act := .pin .raw [1] } : Call).run
        (contested.release (.of .raw [1])).2.content).2.calm).1 = .ok (some .direct) := by
  have readable : contested.content.disk.blocks ≠ .plainFile := fun same => by cases same
  have trusted : contested.content.Trusted := by
    unfold Trusted
    decide
  obtain ⟨one, -, -, -, -, released⟩ := pin_released (.of .raw [1]) contested readable trusted
  obtain ⟨-, zero, -⟩ := pin_released (.of .raw [2]) contested readable trusted
  have first : (contested.release (.of .raw [1])).1 = .ok 1 :=
    toOption_eq_some_iff.1 (by decide +kernel)
  have second : (contested.release (.of .raw [2])).1 = .ok 0 :=
    toOption_eq_some_iff.1 (by decide +kernel)
  have again : (({ act := .pin .raw [1] } : Call).run
      (contested.release (.of .raw [1])).2.content).1 = .ok (.of .raw [1]) :=
    toOption_eq_some_iff.1 (by decide +kernel)
  obtain ⟨-, -, -, repinned⟩ := released 1 first
  exact ⟨readable, trusted, (one.1 first).1, zero.1 second,
    (repinned [] _ .raw [1] _ rfl rfl again).2⟩

end Cafe

end Relay
