import Relay.Http.Answering
import Relay.Proofs.Cafe.Keeping
import Relay.Proofs.Http.Forms

/-!
# Storing the files of a form

A form is gone through from its first part to its last: the parts that are files are kept one by
one and the others are passed over, up to the first file that is refused. What was kept before stays
(`Cafe.form_stored`).
-/

namespace Relay.Cafe

open ObjectStore

variable {c : Cafe} {r : Request} {boundary : String} {form : List Form.Part}

/-- Stores a part of a form if it is a file, unless a part in front of it was refused. -/
def storing (done : Except RequestError Unit × Cafe) (p : Form.Part) :
    Except RequestError Unit × Cafe :=
  match done with
  | (.ok (), c) =>
    if p.name = some Form.fileName then
      ((c.keep p.data).1.map fun _ => (), (c.keep p.data).2)
    else (.ok (), c)
  | (.error e, c) => (.error e, c)

theorem foldl_storing_of_error (e : RequestError) (c : Cafe) (form : List Form.Part) :
    form.foldl storing (.error e, c) = (.error e, c) := by
  induction form with
  | nil => rfl
  | cons p form ih => exact ih

theorem keepAll_files (c : Cafe) (form : List Form.Part) :
    c.keepAll (Form.files form) = form.foldl storing (.ok (), c) := by
  induction form generalizing c with
  | nil => rfl
  | cons p form ih =>
    by_cases file : p.name = some Form.fileName
    case pos =>
      have first : Form.files (p :: form) = p.data :: Form.files form := by
        simp [Form.files, file]
      rw [first, keepAll, List.foldl_cons]
      simp only [storing, if_pos file]
      cases c.keep p.data with
      | mk result c' =>
        cases result with
        | ok id => exact ih c'
        | error e => exact (foldl_storing_of_error e c' form).symm
    case neg =>
      have first : Form.files (p :: form) = Form.files form := by
        simp [Form.files, file]
      rw [first, ih, List.foldl_cons]
      simp only [storing, if_neg file]

theorem answerPins_of_form (media : r.mediaType?.bind MediaType.formBoundary? = some boundary)
    (room : r.body.length ≤ c.config.maxBodySize) (spelled : Form.Spells boundary form r.body) :
    c.answerPins r = (.ofResult 204 (form.foldl storing (.ok (), c)).1,
      (form.foldl storing (.ok (), c)).2) := by
  rw [answerPins, media, ← keepAll_files]
  dsimp only
  rw [if_neg (Nat.not_lt.2 room), Form.parts_eq_complete_iff.2 spelled]
  dsimp only
  cases c.keepAll (Form.files form) with
  | mk result c' =>
    cases result with
    | ok done => rfl
    | error e => rfl

/-! ### What the answer tells -/

theorem status_tooLarge (bytes : Bytes) (limit : Nat) :
    (Answer.ofError (tooLarge bytes limit)).status = 400 := by
  unfold Answer.ofError
  split <;> rfl

theorem KeptUpTo.accepted_iff {limit : Nat} {files kept : List Bytes}
    {result : Except RequestError Unit} (h : KeptUpTo limit files kept result) :
    ((Answer.ofResult 204 result).status = 204 ↔ ∀ bytes ∈ files, bytes.length ≤ limit) ∧
      ((Answer.ofResult 204 result).status ≠ 204 → (Answer.ofResult 204 result).status = 400) := by
  cases h with
  | all fit => exact ⟨iff_of_true rfl fit, fun other => absurd rfl other⟩
  | first big after fit large =>
    have refused :
        (Answer.ofResult 204 (.error (tooLarge big limit) : Except RequestError Unit)).status =
          400 :=
      status_tooLarge big limit
    refine ⟨iff_of_false ?_ fun all => ?_, fun _ => refused⟩
    · rw [refused]
      decide
    · exact absurd (all big (by simp)) (Nat.not_le.2 large)

theorem KeptUpTo.kept_eq {limit : Nat} {files kept : List Bytes}
    {result : Except RequestError Unit} (h : KeptUpTo limit files kept result) :
    kept = files.takeWhile (·.length ≤ limit) := by
  cases h with
  | all fit =>
    have whole : (files ++ []).takeWhile (·.length ≤ limit) = files ++ [] :=
      List.takeWhile_append_of_pos fun bytes mem => decide_eq_true (fit bytes mem)
    rw [List.append_nil] at whole
    exact whole.symm
  | first big after fit large =>
    rw [List.takeWhile_append_of_pos fun bytes mem => decide_eq_true (fit bytes mem),
      List.takeWhile_cons_of_neg (by simpa using large), List.append_nil]

/-- The object of these bytes is there under its id, and this pin is reported for it. -/
def Reports (s : ObjectStore) (codec : Codec) (mode : PinMode) (bytes : Bytes) : Prop :=
  s.disk.blocks.get? (.of codec bytes) ≠ none ∧
    (status (.of codec bytes) s).1 = .ok (some mode)

/-- A healthy store reports what has been stored in it. -/
theorem reports_of_stocked {s t : ObjectStore} {kept : List Bytes} {bytes : Bytes}
    (healthy : t.Healthy)
    (stocked : Stocked (kept.map fun bytes => (.suiting bytes, bytes)) s t) (mem : bytes ∈ kept) :
    ((∃ node, Node.ofBytes bytes = .ok node) → Reports t .node .recursive bytes) ∧
      ((¬∃ node, Node.ofBytes bytes = .ok node) → Reports t .raw .direct bytes) := by
  have object : (ContentId.suiting bytes, bytes) ∈
      kept.map fun bytes => (ContentId.suiting bytes, bytes) := List.mem_map.2 ⟨bytes, mem, rfl⟩
  have present := stocked.present _ object
  have reported := status_calm_of_reads (stocked.pinned _ object)
  rw [healthy.calm_eq] at reported
  constructor
  · rintro ⟨node, decoded⟩
    have codec : Codec.suiting bytes = .node := by rw [Codec.suiting, decoded]
    rw [ContentId.suiting, codec] at present reported
    exact ⟨present, reported⟩
  · intro none
    have codec : Codec.suiting bytes = .raw := by
      cases decoded : Node.ofBytes bytes with
      | ok node => exact absurd ⟨node, decoded⟩ none
      | error fault => rw [Codec.suiting, decoded]
    rw [ContentId.suiting, codec] at present reported
    exact ⟨present, reported⟩

/-- A request with a form does what storing its parts one by one does, whatever state the store is
in. If the store is healthy it is accepted exactly if all files fit, and else it is malformed by the
first that does not; the files in front of that are stored, with the pins that they ask for, and
nothing else. An object that is kept, in a store in any state, is there and pinned, and one that
cannot be stored as a node is stored as raw bytes if that can be done. -/
theorem form_stored (media : r.mediaType?.bind MediaType.formBoundary? = some boundary)
    (room : r.body.length ≤ c.config.maxBodySize) (spelled : Form.Spells boundary form r.body) :
    c.answerPins r = (.ofResult 204 (form.foldl storing (.ok (), c)).1,
      (form.foldl storing (.ok (), c)).2) ∧
    (c.content.Healthy → ∃ kept t,
      (c.answerPins r).2 = { c with content := t } ∧ t.Healthy ∧
      KeptUpTo c.content.limit (Form.files form) kept (form.foldl storing (.ok (), c)).1 ∧
      ((c.answerPins r).1.status = 204 ↔
        ∀ bytes ∈ Form.files form, bytes.length ≤ c.content.limit) ∧
      ((c.answerPins r).1.status ≠ 204 → (c.answerPins r).1.status = 400) ∧
      Stocked (kept.map fun bytes => (.suiting bytes, bytes)) c.content t ∧
      ∀ bytes ∈ kept,
        ((∃ node, Node.ofBytes bytes = .ok node) → Reports t .node .recursive bytes) ∧
        ((¬∃ node, Node.ofBytes bytes = .ok node) → Reports t .raw .direct bytes)) ∧
    ∀ (d : Cafe) bytes,
      (∀ id, (d.keep bytes).1 = .ok id →
        (id = .of .node bytes ∨ id = .of .raw bytes) ∧
        (d.keep bytes).2.content.disk.blocks.get? id ≠ none ∧
        ∃ mode, mode.isPinned = true ∧
          (status id (d.keep bytes).2.content.calm).1 = .ok (some mode)) ∧
      ∀ e t, pinAsNode bytes d.content = (.error e, t) →
        d.keep bytes = ((pinAsBytes bytes t).1.mapError ofContent,
          { d with content := (pinAsBytes bytes t).2 }) := by
  have answered := answerPins_of_form media room spelled
  refine ⟨answered, fun healthy => ?_, fun d bytes => ⟨?_, fun e t => keep_of_no_node⟩⟩
  · obtain ⟨kept, result, t, ran, upTo, healthy, stocked⟩ :=
      keepAll_of_healthy healthy (Form.files form)
    rw [keepAll_files] at ran
    rw [answered, ran]
    exact ⟨kept, t, rfl, healthy, upTo, upTo.accepted_iff.1, upTo.accepted_iff.2, stocked,
      fun bytes mem => reports_of_stocked healthy stocked mem⟩
  · intro id ok
    obtain ⟨codec, mode, rfl, isPinned, present, reads⟩ := keep_ok ok
    refine ⟨?_, present, mode, isPinned, status_calm_of_reads reads⟩
    cases codec
    · exact .inr rfl
    · exact .inl rfl

/-! ### A form with a file that is too large -/

/-- A note and four files, of which the second is a node and the third has 17 bytes. -/
def albumFields : List (String × Bytes) :=
  [("note", Text.Utf8.ofText "some files"), ("file", Text.Utf8.ofText "one"),
    ("file", List.replicate 16 0), ("file", Text.Utf8.ofText "seventeen letters"),
    ("file", Text.Utf8.ofText "late")]

def album : Request where
  method := .post
  target := "/cafe/v1/pin"
  headers := [("content-type", "multipart/form-data; boundary=b")]
  body := Form.dashes ++ Text.Utf8.ofText "b" ++
    Form.written (Text.Utf8.ofText "b") albumFields

theorem album_spelled : Form.Spells "b" (albumFields.map Form.part) album.body := by
  have plain : ∀ field ∈ albumFields, Form.IsPlain field.1 := by
    unfold Form.IsPlain
    decide +kernel
  have oneLine : ∀ field ∈ albumFields, 13 ∉ field.2 := by decide +kernel
  exact Form.spells_written plain fun field mem => Form.until_of_not_mem (oneLine field mem)

def narrowCafe : Cafe := .ofConfig { maxObjectSize := 16 }

theorem narrowCafe_healthy : narrowCafe.content.Healthy :=
  AtRest.healthy ⟨⟨[], sound_empty 16⟩, tidy_empty 16, rfl⟩

/-- The files in front of the third are stored. -/
theorem album_stored :
    (narrowCafe.answerPins album).1.status = 400 ∧
      ∃ t, (narrowCafe.answerPins album).2 = { narrowCafe with content := t } ∧
        Reports t .raw .direct (Text.Utf8.ofText "one") ∧
        Reports t .node .recursive (List.replicate 16 0) := by
  let one := Text.Utf8.ofText "one"
  let node : Bytes := List.replicate 16 0
  have media : album.mediaType?.bind MediaType.formBoundary? = some "b" := by decide +kernel
  have room : album.body.length ≤ narrowCafe.config.maxBodySize := by decide +kernel
  obtain ⟨-, healthy, -⟩ := form_stored media room album_spelled
  obtain ⟨kept, t, changed, -, upTo, accepted, refused, -, reports⟩ := healthy narrowCafe_healthy
  have kept : kept = [one, node] := upTo.kept_eq.trans (by decide +kernel)
  have large : ¬∀ bytes ∈ Form.files (albumFields.map Form.part),
      bytes.length ≤ narrowCafe.content.limit := by
    decide +kernel
  have noNode : (Node.ofBytes one).isOk = false := by decide +kernel
  have aNode : (Node.ofBytes node).isOk = true := by decide +kernel
  subst kept
  refine ⟨refused fun ok => large (accepted.1 ok), t, changed, ?_, ?_⟩
  · refine (reports one List.mem_cons_self).2 ?_
    rintro ⟨node, decoded⟩
    rw [decoded] at noNode
    cases noNode
  · refine (reports node (List.mem_cons_of_mem _ List.mem_cons_self)).1 ?_
    cases decoded : Node.ofBytes node with
    | ok node => exact ⟨node, rfl⟩
    | error fault =>
      rw [decoded] at aNode
      cases aNode

end Relay.Cafe
