import Relay.Http.MediaType
import Relay.Text.Utf8

/-!
# Forms

A form is sent in parts, with a boundary in front of each and a last one behind. A part has
header lines, a blank line and its data. What stands in front of the first boundary and behind
the last is passed over.
-/

namespace Relay

/-- Cuts at the first place where a pattern stands: what is before it and what is behind. The
bytes passed are in reverse in `acc`. -/
def cutFrom (pattern : Bytes) (acc : Bytes) : Bytes → Option (Bytes × Bytes)
  | [] => if pattern.isEmpty then some (acc.reverse, []) else none
  | b :: rest =>
    if pattern.isPrefixOf (b :: rest) then some (acc.reverse, (b :: rest).drop pattern.length)
    else cutFrom pattern (b :: acc) rest

def cut? (pattern bs : Bytes) : Option (Bytes × Bytes) := cutFrom pattern [] bs

namespace Form

structure Part where
  name : Option String
  data : Bytes
  deriving DecidableEq

/-- What comes after the last part that can be read. -/
inductive Ending where
  | complete
  /-- No boundary, or no header lines behind one. -/
  | broken
  /-- A part whose data has no end. -/
  | cutOff (name : Option String)
  deriving DecidableEq

def lineEnd : Bytes := [13, 10]

def dashes : Bytes := [45, 45]

/-! ### Header lines -/

def isSpace (b : UInt8) : Bool := b == 32 || b == 9

/-- A byte of a header name. -/
def isNameByte (b : UInt8) : Bool := MediaType.isToken (Char.ofNat b.toNat)

def isValueByte (b : UInt8) : Bool := (32 ≤ b && b != 127) || b == 9

/-- What follows a line end, which may lack its first byte. -/
def afterLineEnd? (bs : Bytes) : Option Bytes :=
  match bs with
  | 13 :: 10 :: rest => some rest
  | 10 :: rest => some rest
  | _ => none

/-- Reads up to `room` header lines and the blank line behind them. A header name has at most
65535 bytes. -/
def headerLines (bs : Bytes) (room : Nat) : Option (List (Bytes × Bytes)) :=
  if (afterLineEnd? bs).isSome then some []
  else
    match room with
    | 0 => none
    | room + 1 => do
      let name := bs.takeWhile isNameByte
      match bs.dropWhile isNameByte with
      | 58 :: rest =>
        if name.isEmpty ∨ 65535 < name.length then none
        else
          let rest := rest.dropWhile isSpace
          let value := rest.takeWhile isValueByte
          let bs ← afterLineEnd? (rest.dropWhile isValueByte)
          let value := (value.reverse.dropWhile isSpace).reverse
          return (name, value) :: (← headerLines bs room)
      | _ => none

/-! ### The name of a part -/

/-- White space in header values. -/
def isBlank (b : UInt8) : Bool := b == 32 || b == 9 || b == 10 || b == 12 || b == 13

/-- What follows a byte that may have blanks in front. -/
def after? (b : UInt8) (bs : Bytes) : Option Bytes :=
  match bs.dropWhile isBlank with
  | c :: rest => if c = b then some rest else none
  | [] => none

/-- A value in quotes, after the opening one. A backslash in front makes a quote part of it. -/
def quotedFrom (acc : Bytes) : Bytes → Option Bytes
  | [] => none
  | b :: rest =>
    if b = 34 then
      match acc with
      | 92 :: acc => quotedFrom (34 :: acc) rest
      | _ => some acc.reverse
    else quotedFrom (b :: acc) rest

/-- The value of a parameter, up to a semicolon or a space if it has no quotes. -/
def parameterValue (bs : Bytes) : Option Bytes :=
  match after? 34 bs with
  | some inside => quotedFrom [] inside
  | none => some ((bs.dropWhile isBlank).takeWhile fun b => b != 59 && b != 32)

/-- The letters of `name`. -/
def nameWord : Bytes := Text.Utf8.ofText "name"

/-- The parameter `name` of a disposition: the first place where the word is no end of another
one counts, and nothing is found unless an equals sign follows there. `free` says that a word may
start here, as it may behind a word that is passed over. -/
def dispositionName (free : Bool) (bs : Bytes) : Nat → Option Bytes
  | 0 => none
  | fuel + 1 =>
    if nameWord.isPrefixOf bs then
      let behind := bs.drop nameWord.length
      if free then (after? 61 behind).bind parameterValue else dispositionName true behind fuel
    else
      match bs with
      | [] => none
      | b :: rest => dispositionName (isBlank b || b == 59) rest fuel

/-- Letters in lower case. -/
def lower (bs : Bytes) : Bytes := bs.map fun b => if 65 ≤ b ∧ b ≤ 90 then b + 32 else b

/-- The name that the last disposition gives. -/
def partName (headers : List (Bytes × Bytes)) : Option String := do
  let word := Text.Utf8.ofText "content-disposition"
  let (_, value) ← headers.reverse.find? fun h => lower h.1 == word
  let name ← dispositionName true value (value.length + 1)
  (Text.Utf8.toText name).toOption

/-! ### Parts -/

/-- The parts behind a boundary, and what comes after them. Each part takes bytes. -/
def partsFrom (boundary : Bytes) (bs : Bytes) : Nat → List Part × Ending
  | 0 => ([], .broken)
  | fuel + 1 =>
    if dashes.isPrefixOf bs then ([], .complete)
    else
      match bs.dropWhile isSpace with
      | 13 :: 10 :: rest =>
        match cut? (lineEnd ++ lineEnd) rest with
        | none => ([], .broken)
        | some (lines, content) =>
          match headerLines (lines ++ lineEnd ++ lineEnd) 32 with
          | none => ([], .broken)
          | some headers =>
            let name := partName headers
            match cut? (lineEnd ++ dashes ++ boundary) content with
            | none => ([], .cutOff name)
            | some (data, rest) =>
              let (parts, ending) := partsFrom boundary rest fuel
              ({ name, data } :: parts, ending)
      | _ => ([], .broken)

/-- Reads the parts of a form. -/
def parts (boundary : String) (body : Bytes) : List Part × Ending :=
  let boundary := Text.Utf8.ofText boundary
  match cut? (dashes ++ boundary) body with
  | none => ([], .broken)
  | some (_, rest) => partsFrom boundary rest (rest.length + 1)

end Form

end Relay
