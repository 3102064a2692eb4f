import Relay.Cafe.Basic
import Relay.Proofs.Content.Health

/-!
# Objects that a cafe is given

An object is kept as a node if that can be done and as raw bytes if not. Whatever state the store
is in, an object that is kept is there and pinned afterwards (`Cafe.keep_ok`). A healthy store keeps
the objects of a list up to the first that is too large, each under the codec that its bytes ask
for (`Cafe.keepAll_of_healthy`).
-/

namespace Relay

/-- What bytes are kept as where nothing fails. -/
def Codec.suiting (bytes : Bytes) : Codec :=
  match Node.ofBytes bytes with
  | .ok _ => .node
  | .error _ => .raw

def ContentId.suiting (bytes : Bytes) : ContentId := .of (.suiting bytes) bytes

namespace Cafe

open ObjectStore

variable {c : Cafe} {bytes : Bytes} {id : ContentId} {t : ObjectStore}

/-! ### One object -/

theorem keep_of_node (ran : pinAsNode bytes c.content = (.ok id, t)) :
    c.keep bytes = (.ok id, { c with content := t }) := by
  simp only [keep, withContent, ran]

theorem keep_of_no_node {e : ObjectError} (ran : pinAsNode bytes c.content = (.error e, t)) :
    c.keep bytes = ((pinAsBytes bytes t).1.mapError ofContent,
      { c with content := (pinAsBytes bytes t).2 }) := by
  simp only [keep, withContent, ran]
  rfl

theorem keep_ok (ok : (c.keep bytes).1 = .ok id) :
    ∃ codec mode, id = .of codec bytes ∧ mode.isPinned = true ∧
      (c.keep bytes).2.content.disk.blocks.get? id ≠ none ∧
      PinReads (c.keep bytes).2.content id mode := by
  cases ran : pinAsNode bytes c.content with
  | mk r t =>
    cases r with
    | ok id' =>
      rw [keep_of_node ran] at ok ⊢
      cases ok
      have spec := ((runs_pinAsNode bytes c.content).of_eq ran).2
      rcases spec with ⟨⟨e, failed⟩, -⟩ | ⟨same, pinned, file⟩
      · cases failed
      · cases same
        exact ⟨.node, .recursive, rfl, rfl, pinned.present, pinReads_of_file file⟩
    | error e =>
      rw [keep_of_no_node ran] at ok ⊢
      have pinned := runs_pinAsBytes bytes t
      cases raw : pinAsBytes bytes t with
      | mk r u =>
        rw [raw] at ok
        rcases pinned.of_eq raw with ⟨⟨e, rfl⟩, -⟩ | ⟨rfl, pinned, file⟩
        · cases ok
        · cases ok
          rcases file with direct | recursive
          · exact ⟨.raw, .direct, rfl, rfl, pinned.present, pinReads_of_file direct⟩
          · exact ⟨.raw, .recursive, rfl, rfl, pinned.present, recursive⟩

/-- Why an object is refused that is larger than the store takes. -/
def tooLarge (bytes : Bytes) (limit : Nat) : RequestError :=
  ofContent (.tooLarge bytes.length limit)

theorem keep_of_large (large : c.content.limit < bytes.length) :
    c.keep bytes = (.error (tooLarge bytes c.content.limit), c) := by
  have refused : checkLimit bytes c.content =
      (.error (.tooLarge bytes.length c.content.limit), c.content) := by
    rw [checkLimit_eq, if_neg (Nat.not_le.2 large)]
  have raw : pinAsBytes bytes c.content = _ := bind_of_error refused
  rw [keep_of_no_node (bind_of_error refused), raw]
  rfl

theorem keep_of_healthy (h : c.content.Healthy) (fits : bytes.length ≤ c.content.limit) :
    ∃ t, c.keep bytes = (.ok (.suiting bytes), { c with content := t }) ∧ t.Healthy ∧
      Stocked [(.suiting bytes, bytes)] c.content t := by
  unfold ContentId.suiting Codec.suiting
  cases decoded : Node.ofBytes bytes with
  | ok node =>
    have takes : c.content.Takes .node bytes := ⟨fits, fun _ => ⟨node, decoded⟩⟩
    have pinned := h.runs_pin takes
    cases ran : (Act.pin .node bytes).op c.content with
    | mk r t =>
      obtain ⟨rfl, healthy, pinned, reads⟩ := pinned.of_eq ran
      exact ⟨t, keep_of_node ran, healthy, .of_pinned pinned reads⟩
  | error fault =>
    have takes : c.content.Takes .raw bytes := ⟨fits, fun impossible => by cases impossible⟩
    have pinned := h.runs_pin takes
    have no : ¬c.content.Takes .node bytes := by
      rintro ⟨-, decodes⟩
      obtain ⟨node, impossible⟩ := decodes rfl
      cases decoded.symm.trans impossible
    obtain ⟨e, refused⟩ := pin_of_not_takes no
    cases ran : (Act.pin .raw bytes).op c.content with
    | mk r t =>
      obtain ⟨rfl, healthy, pinned, reads⟩ := pinned.of_eq ran
      have ran : pinAsBytes bytes c.content = _ := ran
      refine ⟨t, ?_, healthy, .of_pinned pinned reads⟩
      rw [keep_of_no_node refused, ran]
      rfl

/-! ### A list of objects -/

/-- How far a list of objects is kept: all of them, or those in front of the first that is too
large. -/
inductive KeptUpTo (limit : Nat) : List Bytes → List Bytes → Except RequestError Unit → Prop
  | all {files : List Bytes} (fit : ∀ bytes ∈ files, bytes.length ≤ limit) :
      KeptUpTo limit files files (.ok ())
  | first {before : List Bytes} (big : Bytes) (after : List Bytes)
      (fit : ∀ bytes ∈ before, bytes.length ≤ limit) (large : limit < big.length) :
      KeptUpTo limit (before ++ big :: after) before (.error (tooLarge big limit))

theorem KeptUpTo.cons {limit : Nat} {files kept : List Bytes} {r : Except RequestError Unit}
    (h : KeptUpTo limit files kept r) (fits : bytes.length ≤ limit) :
    KeptUpTo limit (bytes :: files) (bytes :: kept) r := by
  cases h with
  | all fit => exact .all (List.forall_mem_cons.2 ⟨fits, fit⟩)
  | first big after fit large => exact .first big after (List.forall_mem_cons.2 ⟨fits, fit⟩) large

theorem keepAll_of_healthy (h : c.content.Healthy) (files : List Bytes) :
    ∃ kept r t, c.keepAll files = (r, { c with content := t }) ∧
      KeptUpTo c.content.limit files kept r ∧ t.Healthy ∧
      Stocked (kept.map fun bytes => (.suiting bytes, bytes)) c.content t := by
  induction files generalizing c with
  | nil => exact ⟨[], .ok (), c.content, rfl, .all (List.forall_mem_nil _), h, .refl _⟩
  | cons bytes files ih =>
    by_cases fits : bytes.length ≤ c.content.limit
    case pos =>
      obtain ⟨u, stored, healthy, stocked⟩ := keep_of_healthy h fits
      obtain ⟨kept, r, t, ran, upTo, healthy, rest⟩ := ih (c := { c with content := u }) healthy
      refine ⟨bytes :: kept, r, t, ?_, ?_, healthy, stocked.append rest⟩
      · rw [keepAll, stored]
        exact ran
      · have limit : u.limit = c.content.limit := stocked.adds.limit
        exact (limit ▸ upTo).cons fits
    case neg =>
      have large := Nat.not_le.1 fits
      refine ⟨[], _, c.content, ?_, .first bytes files (List.forall_mem_nil _) large, h, .refl _⟩
      rw [keepAll, keep_of_large large]

end Cafe

end Relay
