import Relay.Http.Form
import Relay.Proofs.Text.Utf8

/-!
# What is read as a form

`Form.Spells boundary parts body` says how a body is written: something in front of the first
boundary, the parts one behind the other, and something behind the two dashes that end it. The
reader finds the parts of every body that is written so, and a body that it reads to its end is
written so (`Form.parts_eq_complete_iff`). In particular a body has at most one list of parts, and
every list of named data that does not hold the boundary has a body (`Form.spells_written`).
-/

namespace Relay

variable {pattern bs acc front behind : Bytes}

/-! ### The first place of a pattern -/

/-- In front of the pattern it does not stand earlier, nor does it start in these bytes. -/
def Until (pattern bs : Bytes) : Prop :=
  ∀ before after, bs ++ pattern = before ++ pattern ++ after → after = []

theorem until_nil (pattern : Bytes) : Until pattern [] := by
  intro before after same
  have lengths := congrArg List.length same
  simp only [List.nil_append, List.length_append] at lengths
  exact List.length_eq_zero_iff.1 (by omega)

theorem until_cons_iff {b : UInt8} :
    Until pattern (b :: bs) ↔ ¬pattern <+: b :: (bs ++ pattern) ∧ Until pattern bs := by
  constructor
  · intro ends
    refine ⟨?_, fun before after same => ends (b :: before) after (congrArg (b :: ·) same)⟩
    rintro ⟨after, same⟩
    have nothing : after = [] := ends [] after same.symm
    have lengths := congrArg List.length same
    simp only [nothing, List.length_append, List.length_cons, List.length_nil] at lengths
    omega
  · rintro ⟨later, ends⟩ before after same
    cases before with
    | nil => exact absurd ⟨after, same.symm⟩ later
    | cons c before => exact ends before after (List.cons.inj same).2

/-- Whether a pattern stands in front of itself is seen without what is behind. -/
theorem prefix_append_pattern_iff :
    pattern <+: bs ++ (pattern ++ behind) ↔ pattern <+: bs ++ pattern := by
  rw [← List.append_assoc]
  constructor
  · intro first
    refine List.prefix_of_prefix_length_le first (List.prefix_append _ _) ?_
    rw [List.length_append]
    omega
  · exact fun first => first.trans (List.prefix_append _ _)

theorem cutFrom_eq_some_iff (some_pattern : pattern ≠ []) :
    cutFrom pattern acc bs = some (front, behind) ↔
      ∃ passed, front = acc.reverse ++ passed ∧ bs = passed ++ (pattern ++ behind) ∧
        Until pattern passed := by
  induction bs generalizing acc with
  | nil =>
    rw [cutFrom, if_neg (by simpa using some_pattern)]
    constructor
    · intro impossible
      cases impossible
    · rintro ⟨passed, -, same, -⟩
      exact absurd (List.append_eq_nil_iff.1 (List.append_eq_nil_iff.1 same.symm).2).1 some_pattern
  | cons b rest ih =>
    rw [cutFrom]
    by_cases first : pattern.isPrefixOf (b :: rest)
    case pos =>
      rw [if_pos first]
      obtain ⟨tail, same⟩ := List.isPrefixOf_iff_prefix.1 first
      rw [← same, List.drop_left, Option.some.injEq, Prod.mk.injEq]
      constructor
      · rintro ⟨rfl, rfl⟩
        exact ⟨[], (List.append_nil _).symm, rfl, until_nil pattern⟩
      · rintro ⟨passed, rfl, there, ends⟩
        cases passed with
        | nil => exact ⟨(List.append_nil _).symm, List.append_cancel_left there⟩
        | cons c passed =>
          -- the pattern would stand in front of the place that is given
          have start : pattern <+: c :: passed ++ (pattern ++ behind) := there ▸ ⟨tail, rfl⟩
          exact absurd (prefix_append_pattern_iff.1 start) (until_cons_iff.1 ends).1
    case neg =>
      rw [if_neg first, ih]
      constructor
      · rintro ⟨passed, rfl, rfl, ends⟩
        refine ⟨b :: passed, by simp, rfl, until_cons_iff.2 ⟨fun start => first ?_, ends⟩⟩
        have start : pattern <+: b :: passed ++ pattern := start
        exact List.isPrefixOf_iff_prefix.2 (prefix_append_pattern_iff.2 start)
      · rintro ⟨passed, rfl, there, ends⟩
        cases passed with
        | nil => exact absurd (List.isPrefixOf_iff_prefix.2 ⟨behind, there.symm⟩) first
        | cons c passed =>
          obtain ⟨rfl, rfl⟩ := List.cons.inj there
          exact ⟨passed, by simp, rfl, (until_cons_iff.1 ends).2⟩

/-- A cut is made at the first place of the pattern. -/
theorem cut?_eq_some_iff (some_pattern : pattern ≠ []) :
    cut? pattern bs = some (front, behind) ↔
      bs = front ++ (pattern ++ behind) ∧ Until pattern front := by
  rw [cut?, cutFrom_eq_some_iff some_pattern]
  constructor
  · rintro ⟨passed, rfl, there, ends⟩
    exact ⟨there, ends⟩
  · rintro ⟨there, ends⟩
    exact ⟨front, rfl, there, ends⟩

namespace Form

variable {boundary : Bytes} {form : List Part} {body : Bytes}

/-! ### How a form is written -/

/-- The parts of a form and its end, behind the first boundary. -/
inductive Follows (boundary : Bytes) : List Part → Bytes → Prop
  | last (behind : Bytes) : Follows boundary [] (dashes ++ behind)
  | part (padding lines : Bytes) (headers : List (Bytes × Bytes)) (data : Bytes)
      {form : List Part} {bs : Bytes}
      (blank : ∀ b ∈ padding, isSpace b)
      (head : Until (lineEnd ++ lineEnd) lines)
      (read : headerLines (lines ++ lineEnd ++ lineEnd) 32 = some headers)
      (ends : Until (lineEnd ++ dashes ++ boundary) data)
      (more : Follows boundary form bs) :
      Follows boundary ({ name := partName headers, data } :: form)
        (padding ++ (lineEnd ++ (lines ++ (lineEnd ++ lineEnd ++
          (data ++ (lineEnd ++ dashes ++ boundary ++ bs))))))

/-- A body that is written as a form with these parts. -/
def Spells (boundary : String) (form : List Part) (body : Bytes) : Prop :=
  ∃ front bs, body = front ++ (dashes ++ Text.Utf8.ofText boundary ++ bs) ∧
    Until (dashes ++ Text.Utf8.ofText boundary) front ∧ Follows (Text.Utf8.ofText boundary) form bs

/-! ### Reading -/

theorem dropWhile_padding {padding : Bytes} (blank : ∀ b ∈ padding, isSpace b) (bs : Bytes) :
    (padding ++ (lineEnd ++ bs)).dropWhile isSpace = lineEnd ++ bs := by
  rw [List.dropWhile_append_of_pos blank]
  rfl

/-- What starts with padding or with a line end does not start with dashes. -/
theorem not_dashes_prefix {padding : Bytes} (blank : ∀ b ∈ padding, isSpace b) (bs : Bytes) :
    dashes.isPrefixOf (padding ++ (lineEnd ++ bs)) = false := by
  cases padding with
  | nil => rfl
  | cons b padding =>
    have space : isSpace b := blank b List.mem_cons_self
    have other : (45 == b) = false := by
      refine beq_false_of_ne fun same => ?_
      rw [← same] at space
      revert space
      decide
    simp only [dashes, List.cons_append, List.isPrefixOf_cons_cons, other, Bool.false_and]

theorem partsFrom_of_follows (h : Follows boundary form bs) {fuel : Nat}
    (enough : bs.length < fuel) : partsFrom boundary bs fuel = (form, .complete) := by
  induction h generalizing fuel with
  | last behind =>
    obtain _ | fuel := fuel
    · omega
    rw [partsFrom, if_pos (List.isPrefixOf_iff_prefix.2 (List.prefix_append _ _))]
  | @part padding lines headers data form bs blank head read ends more ih =>
    obtain _ | fuel := fuel
    · omega
    have rest : partsFrom boundary bs fuel = (form, .complete) := by
      refine ih ?_
      have : 0 < lineEnd.length := by decide
      simp only [List.length_append] at enough
      omega
    have first : cut? (lineEnd ++ lineEnd) (lines ++ (lineEnd ++ lineEnd ++
        (data ++ (lineEnd ++ dashes ++ boundary ++ bs)))) =
          some (lines, data ++ (lineEnd ++ dashes ++ boundary ++ bs)) :=
      (cut?_eq_some_iff (by decide)).2 ⟨rfl, head⟩
    have some_pattern : lineEnd ++ dashes ++ boundary ≠ [] := List.cons_ne_nil _ _
    have second : cut? (lineEnd ++ dashes ++ boundary)
        (data ++ (lineEnd ++ dashes ++ boundary ++ bs)) = some (data, bs) :=
      (cut?_eq_some_iff some_pattern).2 ⟨rfl, ends⟩
    rw [partsFrom, not_dashes_prefix blank, dropWhile_padding blank]
    simp only [lineEnd, List.cons_append, List.nil_append, Bool.false_eq_true, if_false] at *
    simp only [first, read, second, rest]

theorem follows_of_partsFrom {fuel : Nat} (ran : partsFrom boundary bs fuel = (form, .complete)) :
    Follows boundary form bs := by
  fun_induction partsFrom boundary bs fuel generalizing form with
  | case1 | case3 | case4 | case5 | case7 => cases ran
  | case2 bs fuel last =>
    cases ran
    obtain ⟨behind, rfl⟩ := List.isPrefixOf_iff_prefix.1 last
    exact .last behind
  | case6 bs fuel _ rest line lines content first headers read name data bs' second form' ending
      more =>
    rename_i ih
    cases ran
    obtain ⟨rfl, head⟩ := (cut?_eq_some_iff (by decide)).1 first
    have some_pattern : lineEnd ++ dashes ++ boundary ≠ [] := List.cons_ne_nil _ _
    obtain ⟨rfl, ends⟩ := (cut?_eq_some_iff some_pattern).1 second
    obtain ⟨padding, blank, whole⟩ :
        ∃ padding : Bytes, (∀ b ∈ padding, isSpace b) ∧ bs = padding ++ bs.dropWhile isSpace :=
      ⟨bs.takeWhile isSpace, fun b mem => List.all_eq_true.1 List.all_takeWhile b mem,
        List.takeWhile_append_dropWhile.symm⟩
    rw [whole, line]
    exact .part padding lines headers data blank head read ends (ih more)

/-- The parts that are read to the end of a form are the ones that it is written with. -/
theorem parts_eq_complete_iff {boundary : String} :
    parts boundary body = (form, .complete) ↔ Spells boundary form body := by
  have some_pattern : dashes ++ Text.Utf8.ofText boundary ≠ [] := List.cons_ne_nil _ _
  unfold parts
  dsimp only
  constructor
  · intro ran
    cases first : cut? (dashes ++ Text.Utf8.ofText boundary) body with
    | none =>
      rw [first] at ran
      cases ran
    | some found =>
      obtain ⟨front, bs⟩ := found
      rw [first] at ran
      obtain ⟨rfl, ends⟩ := (cut?_eq_some_iff some_pattern).1 first
      exact ⟨front, bs, rfl, ends, follows_of_partsFrom ran⟩
  · rintro ⟨front, bs, rfl, ends, follows⟩
    rw [(cut?_eq_some_iff some_pattern).2 ⟨rfl, ends⟩]
    exact partsFrom_of_follows follows (Nat.lt_succ_self _)

theorem Spells.unique {boundary : String} {form' : List Part} (h : Spells boundary form body)
    (h' : Spells boundary form' body) : form = form' := by
  have same := (parts_eq_complete_iff.2 h).symm.trans (parts_eq_complete_iff.2 h')
  exact (Prod.mk.inj same).1

/-! ### Writing -/

/-- A pattern does not start where its first byte does not stand. -/
theorem until_of_not_mem {b : UInt8} {pattern bs : Bytes} (missing : b ∉ bs) :
    Until (b :: pattern) bs := by
  intro before after same
  have lengths := congrArg List.length same
  simp only [List.length_append, List.length_cons] at lengths
  by_cases inside : before.length < bs.length
  case pos =>
    have first : (bs ++ b :: pattern)[before.length]? = some b := by
      rw [same, List.append_assoc, List.getElem?_append_right (Nat.le_refl _), Nat.sub_self]
      rfl
    rw [List.getElem?_append_left inside] at first
    exact absurd (List.mem_of_getElem? first) missing
  case neg => exact List.length_eq_zero_iff.1 (by omega)

def dispositionWord : Bytes := Text.Utf8.ofText "content-disposition"

/-- The disposition of a part with a name. -/
def disposition (name : String) : Bytes :=
  Text.Utf8.ofText "form-data; " ++ (nameWord ++ 61 :: 34 :: (Text.Utf8.ofText name ++ [34]))

/-- Fields behind a boundary, and the end of the form. -/
def written (boundary : Bytes) : List (String × Bytes) → Bytes
  | [] => dashes
  | (name, data) :: fields =>
    lineEnd ++ (dispositionWord ++ 58 :: 32 :: disposition name ++ (lineEnd ++ lineEnd ++
      (data ++ (lineEnd ++ dashes ++ boundary ++ written boundary fields))))

/-- A name that can stand in quotes as it is. -/
def IsPlain (name : String) : Prop :=
  ∀ b ∈ Text.Utf8.ofText name, isValueByte b ∧ b ≠ 34 ∧ b ≠ 92

def part (field : String × Bytes) : Part := { name := some field.1, data := field.2 }

theorem quotedFrom_of_plain {bs : Bytes} (plain : ∀ b ∈ bs, b ≠ 34 ∧ b ≠ 92)
    (free : acc.head? ≠ some 92) : quotedFrom acc (bs ++ [34]) = some (acc.reverse ++ bs) := by
  have unescaped : ∀ rest, acc = 92 :: rest → False := by
    rintro rest rfl
    exact free rfl
  induction bs generalizing acc with
  | nil =>
    rw [List.nil_append, quotedFrom, if_pos rfl, List.append_nil]
    exact unescaped
  | cons b bs ih =>
    obtain ⟨⟨quote, escape⟩, plain⟩ := List.forall_mem_cons.1 plain
    have next : (b :: acc).head? ≠ some 92 := by simpa using escape
    have read := ih plain next fun rest same => next (same ▸ rfl)
    rw [List.cons_append, quotedFrom, if_neg quote, read]
    · simp
    · exact unescaped

theorem isValueByte_of_mem_disposition {name : String} (plain : IsPlain name) :
    ∀ b ∈ disposition name, isValueByte b := by
  have words : ∀ b ∈ Text.Utf8.ofText "form-data; " ++ nameWord, isValueByte b := by
    decide +kernel
  intro b mem
  simp only [disposition, List.mem_append, List.mem_cons, List.not_mem_nil, or_false] at mem
  rcases mem with word | word | rfl | rfl | named | rfl
  · exact words b (List.mem_append_left _ word)
  · exact words b (List.mem_append_right _ word)
  · rfl
  · rfl
  · exact (plain b named).1
  · rfl

theorem partName_disposition {name : String} (plain : IsPlain name) :
    partName [(dispositionWord, disposition name)] = some name := by
  have quoted : quotedFrom [] (Text.Utf8.ofText name ++ [34]) = some (Text.Utf8.ofText name) :=
    quotedFrom_of_plain (fun b mem => (plain b mem).2) (by simp)
  have named : dispositionName true (disposition name) ((disposition name).length + 1) =
      some (Text.Utf8.ofText name) := quoted
  have text : Text.Utf8.toText (Text.Utf8.ofText name) = .ok name :=
    Text.Utf8.toText_eq_ok_iff.2 rfl
  have word : (lower dispositionWord == Text.Utf8.ofText "content-disposition") = true := by
    decide +kernel
  simp only [partName, List.reverse_singleton, List.find?_cons, word, bind, Option.bind, named,
    text]
  rfl

/-- A disposition is the value of its line, up to the end of the line. -/
theorem value_disposition {name : String} (plain : IsPlain name) (bs : Bytes) :
    (disposition name ++ (lineEnd ++ bs)).takeWhile isValueByte = disposition name ∧
      (disposition name ++ (lineEnd ++ bs)).dropWhile isValueByte = lineEnd ++ bs := by
  have values := isValueByte_of_mem_disposition plain
  rw [List.takeWhile_append_of_pos values, List.dropWhile_append_of_pos values]
  exact ⟨List.append_nil _, rfl⟩

/-- There is nothing to trim behind the quote that ends a disposition. -/
theorem trim_disposition (name : String) :
    ((disposition name).reverse.dropWhile isSpace).reverse = disposition name := by
  have quote : (disposition name).reverse = 34 :: (Text.Utf8.ofText "form-data; " ++
      (nameWord ++ 61 :: 34 :: Text.Utf8.ofText name)).reverse := by
    rw [disposition]
    simp
  rw [quote, List.dropWhile_cons_of_neg (by decide), ← quote, List.reverse_reverse]

theorem headerLines_disposition {name : String} (plain : IsPlain name) :
    headerLines (dispositionWord ++ 58 :: 32 :: disposition name ++ lineEnd ++ lineEnd) 32 =
      some [(dispositionWord, disposition name)] := by
  obtain ⟨value, rest⟩ := value_disposition plain lineEnd
  have spaced : (32 :: (disposition name ++ (lineEnd ++ lineEnd))).dropWhile isSpace =
      disposition name ++ (lineEnd ++ lineEnd) := rfl
  have line : dispositionWord ++ 58 :: 32 :: disposition name ++ lineEnd ++ lineEnd =
      dispositionWord ++ 58 :: 32 :: (disposition name ++ (lineEnd ++ lineEnd)) := by
    simp only [List.append_assoc, List.cons_append]
  rw [line]
  -- what stands behind the space is only looked at by way of the facts above
  generalize disposition name ++ (lineEnd ++ lineEnd) = bs at value rest spaced
  have notEnd : (afterLineEnd? (dispositionWord ++ 58 :: 32 :: bs)).isSome = false := rfl
  have named : (dispositionWord ++ 58 :: 32 :: bs).takeWhile isNameByte = dispositionWord := rfl
  have behind : (dispositionWord ++ 58 :: 32 :: bs).dropWhile isNameByte = 58 :: 32 :: bs := rfl
  have bounds : ¬(dispositionWord.isEmpty = true ∨ 65535 < dispositionWord.length) := by
    decide +kernel
  have last : headerLines lineEnd 31 = some [] := by decide +kernel
  rw [headerLines, if_neg (by rw [notEnd]; decide)]
  simp only [named, behind, if_neg bounds, spaced, value, rest, trim_disposition]
  change (do return (dispositionWord, disposition name) :: (← headerLines lineEnd 31)) = _
  rw [last]
  rfl

theorem follows_written {fields : List (String × Bytes)}
    (plain : ∀ field ∈ fields, IsPlain field.1)
    (ends : ∀ field ∈ fields, Until (lineEnd ++ dashes ++ boundary) field.2) :
    Follows boundary (fields.map part) (written boundary fields) := by
  induction fields with
  | nil => exact .last []
  | cons field fields ih =>
    obtain ⟨name, data⟩ := field
    obtain ⟨first, plain⟩ := List.forall_mem_cons.1 plain
    obtain ⟨data_ends, ends⟩ := List.forall_mem_cons.1 ends
    have head : Until (lineEnd ++ lineEnd) (dispositionWord ++ 58 :: 32 :: disposition name) := by
      refine until_of_not_mem fun mem => ?_
      simp only [List.mem_append, List.mem_cons] at mem
      rcases mem with word | colon | space | value
      · exact absurd word (by decide +kernel)
      · cases colon
      · cases space
      · exact absurd (isValueByte_of_mem_disposition first 13 value) (by decide)
    have follows := Follows.part [] _ _ data (List.forall_mem_nil _) head
      (headerLines_disposition first) data_ends (ih plain ends)
    rw [partName_disposition first] at follows
    exact follows

/-- Every list of fields can be written as a form whose boundary is in none of the data. -/
theorem spells_written {boundary : String} {fields : List (String × Bytes)}
    (plain : ∀ field ∈ fields, IsPlain field.1)
    (ends : ∀ field ∈ fields, Until (lineEnd ++ dashes ++ Text.Utf8.ofText boundary) field.2) :
    Spells boundary (fields.map part)
      (dashes ++ Text.Utf8.ofText boundary ++ written (Text.Utf8.ofText boundary) fields) :=
  ⟨[], _, rfl, until_nil _, follows_written plain ends⟩

end Form

end Relay
