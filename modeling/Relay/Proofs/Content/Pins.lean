import Relay.Proofs.Content.Bounds

/-!
# What pins tell

Where no file step says of itself that what is there is not, the outcome of looking up and of
removing a pin is settled by what stands in the directories and by whether one of the next file
steps fails by itself (`ObjectStore.told_status`, `ObjectStore.drops_unpin`). Nothing but pinning
a node makes a pin recursive (`ObjectStore.not_recursive_after`).
-/

namespace Relay

/-! ### File steps -/

namespace Disk

variable {α : Type}

/-- The disk when so many file steps lie behind. -/
def past (n : Nat) (d : Disk) : Disk := { d with faults := d.faults.drop n }

/-- None of the next file steps fails by itself. -/
def Spared (n : Nat) (d : Disk) : Prop := ∀ e, some e ∉ d.faults.take n

theorem tail_eq_past (d : Disk) : { d with faults := d.faults.tail } = d.past 1 := by
  rw [past, List.drop_one]

theorem not_spared_of_script {d : Disk} {e : IoError} (script : d.faults = some e :: d.faults.tail)
    (n : Nat) : ¬d.Spared (n + 1) := by
  intro spared
  refine spared e ?_
  rw [script, List.take_succ_cons]
  exact List.mem_cons_self

/-- A step fails by itself, or it is spared and does what it is for. -/
theorem runs_spared {f : Disk → Except IoError (α × Disk)} {d : Disk}
    {post : Except IoError α → Disk → Prop}
    (fails : ∀ e, d.faults = some e :: d.faults.tail → post (.error e) (d.past 1))
    (errs : ∀ e, d.Spared 1 → f (d.past 1) = .error e → post (.error e) (d.past 1))
    (goes : ∀ a d', d.Spared 1 → f (d.past 1) = .ok (a, d') → post (.ok a) d') :
    Runs (step f) d post := by
  rw [← tail_eq_past] at fails errs goes
  unfold Runs step
  split
  · next e rest script =>
    have tail : rest = d.faults.tail := by rw [script, List.tail_cons]
    rw [tail] at script ⊢
    exact fails e script
  · next free =>
    have spared : d.Spared 1 := by
      intro e mem
      cases script : d.faults with
      | nil =>
        rw [script] at mem
        cases mem
      | cons fault rest =>
        rw [script, List.take_succ_cons, List.take_zero, List.mem_singleton] at mem
        exact free e rest (mem ▸ script)
    dsimp only
    cases ran : f { d with faults := d.faults.tail } with
    | ok r => exact goes r.1 r.2 spared ran
    | error e => exact errs e spared ran

/-- A step that only reads fails by itself, or it tells what is there. -/
theorem runs_look {f : Disk → Except IoError α} (blind : ∀ d faults, f { d with faults } = f d)
    (d : Disk) : Runs (step fun d => (f d).map (·, d)) d fun r d' => d' = d.past 1 ∧
      ((∃ e, r = .error e ∧ d.faults = some e :: d.faults.tail) ∨ d.Spared 1 ∧ r = f d) := by
  have same : f (d.past 1) = f d := blind d _
  refine runs_spared (fun e script => ⟨rfl, .inl ⟨e, rfl, script⟩⟩) ?_ ?_
  · intro e spared ran
    rw [same] at ran
    refine ⟨rfl, .inr ⟨spared, ?_⟩⟩
    cases found : f d with
    | ok a => rw [found] at ran; cases ran
    | error e' => rw [found] at ran; cases ran; rfl
  · intro a d' spared ran
    rw [same] at ran
    cases found : f d with
    | ok a' => rw [found] at ran; cases ran; exact ⟨rfl, .inr ⟨spared, rfl⟩⟩
    | error e => rw [found] at ran; cases ran

end Disk

namespace ObjectStore

open Disk

variable {s t : ObjectStore} {id : ContentId} {bytes : Bytes} {mode : PinMode}

/-- The store when so many file steps lie behind. -/
def past (n : Nat) (s : ObjectStore) : ObjectStore := { s with disk := s.disk.past n }

def Spared (n : Nat) (s : ObjectStore) : Prop := s.disk.Spared n

theorem past_past (m n : Nat) (s : ObjectStore) : (s.past m).past n = s.past (m + n) := by
  simp only [past, Disk.past, List.drop_drop]

theorem spared_two_iff : s.Spared 2 ↔ s.Spared 1 ∧ (s.past 1).Spared 1 := by
  have split : s.disk.faults.take (1 + 1) =
      s.disk.faults.take 1 ++ (s.disk.faults.drop 1).take 1 := List.take_add
  constructor
  · intro spared
    refine ⟨fun e mem => spared e ?_, fun e mem => spared e ?_⟩
    · exact split ▸ List.mem_append_left _ mem
    · exact split ▸ List.mem_append_right _ mem
  · rintro ⟨first, second⟩ e mem
    rw [split] at mem
    exact (List.mem_append.1 mem).elim (first e) (second e)

theorem Trusted.past (h : s.Trusted) (n : Nat) : (s.past n).Trusted :=
  fun mem => h (List.mem_of_mem_drop mem)

theorem Trusted.of_script (h : s.Trusted) {e : IoError}
    (script : s.disk.faults = some e :: s.disk.faults.tail) : e ≠ .notFound := by
  rintro rfl
  apply h
  rw [script]
  exact List.mem_cons_self

/-! ### Looking up a pin -/

/-- No pin file is there, be the object known or not. -/
def Unpinned (s : ObjectStore) (id : ContentId) : Prop := s.disk.pins.read id = .error .notFound

/-- Something stands in the place of the pin, or of all pins, that does not read as text. -/
def Unreadable (s : ObjectStore) (id : ContentId) : Prop :=
  ¬s.Unpinned id ∧ ∀ mode, ¬PinReads s id mode

theorem PinReads.not_unpinned (h : PinReads s id mode) : ¬s.Unpinned id := by
  obtain ⟨bytes, -, file, -⟩ := h
  rw [Unpinned, Area.read_eq_ok_iff.2 file]
  exact fun impossible => by cases impossible

/-- What looking up a pin comes to. -/
inductive Found (s : ObjectStore) (id : ContentId) : Except ObjectError (Option PinMode) → Prop
  | pin (mode : PinMode) (reads : PinReads s id mode) (spared : s.Spared 1) :
      Found s id (.ok (some mode))
  | nothing (unpinned : s.Unpinned id) (spared : s.Spared 1) : Found s id (.ok none)
  | failed (e : ObjectError) (why : s.Unreadable id ∨ ¬s.Spared 1) : Found s id (.error e)

theorem found_pinOf? (trusted : s.Trusted) (id : ContentId) :
    Runs (pinOf? id) s fun r t => t = s.past 1 ∧ Found s id r := by
  unfold pinOf?
  have looked : Runs (readPin id) s.disk _ := runs_look (fun _ _ => rfl) s.disk
  refine runs_attempt_bind looked ?_
  rintro r d ⟨rfl, ⟨e, rfl, script⟩ | ⟨spared, rfl⟩⟩
  · have failed := not_spared_of_script script 0
    cases e
    case notFound => exact absurd rfl (trusted.of_script script)
    all_goals exact runs_throw ⟨rfl, .failed _ (.inr failed)⟩
  cases there : s.disk.pins.read id with
  | ok bytes =>
    have file := Area.read_eq_ok_iff.1 there
    dsimp only
    cases decoded : Text.Utf8.decode bytes with
    | ok text =>
      exact runs_pure ⟨rfl, .pin _ ⟨bytes, text, file, decoded, rfl⟩ spared⟩
    | error fault =>
      refine runs_throw ⟨rfl, .failed _ (.inl ⟨?_, ?_⟩)⟩
      · rw [Unpinned, there]
        exact fun impossible => by cases impossible
      · rintro mode ⟨bytes', text, file', decoded', -⟩
        rw [file] at file'
        cases file'
        rw [decoded] at decoded'
        cases decoded'
  | error e =>
    have unread : ∀ mode, ¬PinReads s id mode := by
      rintro mode ⟨bytes, -, file, -⟩
      rw [Area.read_eq_ok_iff.2 file] at there
      cases there
    cases e
    case notFound => exact runs_pure ⟨rfl, .nothing there spared⟩
    all_goals
      refine runs_throw ⟨rfl, .failed _ (.inl ⟨?_, unread⟩)⟩
      rw [Unpinned, there]
      exact fun impossible => by cases impossible

/-- What the report on an object comes to, and how many file steps it takes. -/
inductive Told (s : ObjectStore) (id : ContentId) :
    Except ObjectError (Option PinMode) → ObjectStore → Prop
  | pin (mode : PinMode) (reads : PinReads s id mode) (spared : s.Spared 1) :
      Told s id (.ok (some mode)) (s.past 1)
  | nothing (known : Bool) (unpinned : s.Unpinned id) (spared : s.Spared 2) :
      Told s id (.ok (if known then some .notPinned else none)) (s.past 2)
  | failed (e : ObjectError) (n : Nat)
      (why : s.Unreadable id ∨ ¬s.Spared 1 ∨ s.Unpinned id ∧ ¬s.Spared 2) :
      Told s id (.error e) (s.past n)

/-- Unless something else stands in the place of all blocks, only a failing step keeps from
looking for one. -/
theorem looks_contains (readable : s.disk.blocks ≠ .plainFile) (id : ContentId) :
    Runs (contains id) s fun r t => t = s.past 1 ∧
      ((∃ found, r = .ok found) ∧ s.Spared 1 ∨ (∃ e, r = .error e) ∧ ¬s.Spared 1) := by
  have looked : Runs (blockExists id) s.disk _ := runs_look (fun _ _ => rfl) s.disk
  refine (runs_io looked).mono ?_
  rintro r t ⟨r', d, ⟨rfl, ⟨e, rfl, script⟩ | ⟨spared, rfl⟩⟩, rfl, rfl⟩
  · exact ⟨rfl, .inr ⟨⟨_, rfl⟩, not_spared_of_script script 0⟩⟩
  · refine ⟨rfl, .inl ⟨?_, spared⟩⟩
    cases blocks : s.disk.blocks with
    | missing => exact ⟨false, rfl⟩
    | plainFile => exact absurd blocks readable
    | directory entries => exact ⟨entries.contains id, rfl⟩

theorem told_status (trusted : s.Trusted) (readable : s.disk.blocks ≠ .plainFile)
    (id : ContentId) : Runs (status id) s (Told s id) := by
  unfold status
  refine runs_bind (found_pinOf? trusted id) ?_ ?_
  · rintro found t ⟨rfl, found⟩
    cases found with
    | pin mode reads spared => exact runs_pure (.pin mode reads spared)
    | nothing unpinned spared =>
      refine runs_bind (looks_contains (s := s.past 1) readable id) ?_ ?_
      · rintro known t ⟨rfl, ⟨-, next⟩ | ⟨⟨e, failed⟩, -⟩⟩
        · rw [past_past]
          exact runs_pure (.nothing known unpinned (spared_two_iff.2 ⟨spared, next⟩))
        · cases failed
      · rintro e t ⟨rfl, ⟨⟨found, ok⟩, -⟩ | ⟨-, fails⟩⟩
        · cases ok
        · rw [past_past]
          refine .failed e _ (.inr (.inr ⟨unpinned, fun both => fails ?_⟩))
          exact (spared_two_iff.1 both).2
  · rintro e t ⟨rfl, found⟩
    cases found with
    | failed _ why => exact .failed e 1 (why.imp_right .inl)

/-! ### Removing a pin -/

/-- A pin file that is there is removed, unless that step fails by itself. -/
theorem drops_unpin (trusted : s.Trusted) (reads : PinReads s id mode) :
    Runs (ObjectStore.unpin id) s fun r t =>
      (r = .ok () ∧ s.Spared 1 ∧ ∃ pins, s.disk.pins.remove id = .ok pins ∧
          t = { s.past 1 with disk := { (s.past 1).disk with pins } }) ∨
        (∃ e, r = .error e) ∧ ¬s.Spared 1 ∧ t = s.past 1 := by
  obtain ⟨bytes, -, file, -⟩ := reads
  obtain ⟨pins, removed⟩ := Area.remove_of_file file
  have drops : Runs (removePin id) s.disk fun r d =>
      (r = .ok () ∧ s.Spared 1 ∧ d = { s.disk.past 1 with pins }) ∨
        ∃ e, r = .error e ∧ s.disk.faults = some e :: s.disk.faults.tail ∧ d = s.disk.past 1 := by
    have removed : (s.disk.past 1).pins.remove id = .ok pins := removed
    refine runs_spared (fun e script => .inr ⟨e, rfl, script, rfl⟩) ?_ ?_
    · intro e spared ran
      rw [removed] at ran
      cases ran
    · intro a d' spared ran
      rw [removed] at ran
      cases ran
      exact .inl ⟨rfl, spared, rfl⟩
  refine runs_attempt_bind drops ?_
  rintro r d (⟨rfl, spared, rfl⟩ | ⟨e, rfl, script, rfl⟩)
  · exact runs_pure (.inl ⟨rfl, spared, pins, removed, rfl⟩)
  · have failed := not_spared_of_script script 0
    cases e
    case notFound => exact absurd rfl (trusted.of_script script)
    all_goals exact runs_throw (.inr ⟨⟨_, rfl⟩, failed, rfl⟩)

/-! ### Pins that are not recursive -/

theorem not_pinReads_of_free (free : s.disk.pins.get? id = none) (mode : PinMode) :
    ¬PinReads s id mode := by
  rintro ⟨bytes, -, file, -⟩
  rw [free] at file
  cases file

theorem pinReads_congr (same : t.disk.pins.get? id = s.disk.pins.get? id) (mode : PinMode) :
    PinReads t id mode ↔ PinReads s id mode := by
  unfold PinReads
  rw [same]

/-- Only pins that are set recursively read as such afterwards. -/
theorem Adds.not_recursive {bs : List (ContentId × Bytes)} {ps : List (ContentId × PinMode)}
    (adds : Adds bs ps s t) (set : (id, PinMode.recursive) ∉ ps)
    (h : ¬PinReads s id .recursive) : ¬PinReads t id .recursive := by
  rcases adds.pins.get? id with same | ⟨mode, mem, file⟩
  · rwa [pinReads_congr same]
  · intro recursive
    have mode : mode = .recursive := (pinReads_of_file file).unique recursive
    exact set (mode ▸ mem)

theorem not_recursive_act (raw : id.codec = .raw) (h : ¬PinReads s id .recursive) (act : Act) :
    ¬PinReads (act.op s).2 id .recursive := by
  have none : (id, PinMode.recursive) ∉ ([] : List (ContentId × PinMode)) := List.not_mem_nil
  cases act with
  | pin codec bytes =>
    cases codec with
    | node =>
      obtain ⟨-, ⟨-, refused⟩ | ⟨-, pinned, -⟩⟩ := runs_pinAsNode bytes s
      · exact refused.adds.not_recursive none h
      · refine pinned.adds.not_recursive (fun mem => ?_) h
        cases List.mem_singleton.1 mem
        cases raw
    | raw =>
      obtain ⟨-, refused⟩ | ⟨-, pinned, -⟩ := runs_pinAsBytes bytes s
      · exact refused.adds.not_recursive none h
      · refine pinned.adds.not_recursive (fun mem => ?_) h
        cases List.mem_singleton.1 mem
  | unpin id' =>
    have removes : Runs (Act.op (.unpin id')) s fun _ t =>
        s.disk.pins.Differs (Area.Removed id') t.disk.pins :=
      runs_bind (runs_unpin id' s) (fun _ _ removes => removes.2) fun _ _ removes => removes.2
    rcases Area.Differs.get? removes id with same | ⟨-, gone⟩
    · exact fun recursive => h ((pinReads_congr same _).1 recursive)
    · exact not_pinReads_of_free gone _

theorem not_recursive_after (raw : id.codec = .raw) (calls : List Call)
    (h : ¬PinReads s id .recursive) : ¬PinReads (s.after calls) id .recursive := by
  induction calls generalizing s with
  | nil => exact h
  | cons call rest ih =>
    apply ih
    exact not_recursive_act (s := s.disturbed call.faults) raw h call.act

/-- An object that is pinned gets the pin that goes with its codec, unless it is raw and pinned
recursively. -/
theorem pinned_by_codec {codec : Codec}
    (free : codec = .raw → ¬PinReads s (.of .raw bytes) .recursive) :
    Runs (Act.pin codec bytes).op s fun r t => ∀ id, r = .ok id →
      id = .of codec bytes ∧ PinReads t id codec.pinMode := by
  cases codec with
  | node =>
    refine (runs_pinAsNode bytes s).mono ?_
    rintro r t ⟨-, ⟨⟨e, rfl⟩, -⟩ | ⟨rfl, -, file⟩⟩ id ok
    · cases ok
    · cases ok
      exact ⟨rfl, pinReads_of_file file⟩
  | raw =>
    refine (runs_pinAsBytes_reads bytes s).mono fun r t reads id ok => ?_
    obtain ⟨rfl, mode, -⟩ := reads id ok
    exact ⟨rfl, mode.resolve_right fun recursive => free rfl recursive.2⟩

end ObjectStore

end Relay
