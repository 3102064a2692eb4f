import Relay.Bytes

/-!
# Media types

`kind/subtype+suffix; name=value`. All but the values of parameters is in lower case once read.
-/

namespace Relay

structure MediaType where
  kind : String
  subtype : String
  /-- What stands after the last `+`. -/
  suffix : Option String := none
  parameters : List (String × String) := []
  deriving DecidableEq

namespace MediaType

/-- A character of names in headers. -/
def isToken (c : Char) : Bool := c.isAlphanum || "!#$%&'*+-.^_\x60|~".toList.contains c

/-- A character that may stand between quotes. -/
def isQuotable (c : Char) : Bool := 32 ≤ c.toNat && c.toNat != 127

def lower (cs : List Char) : String := (String.ofList cs).toLower

/-- A value in quotes, after the opening one, with what follows the closing one. The first
character may be a quote itself. -/
def quoted? (s : List Char) : Option (List Char × List Char) :=
  match s with
  | [] => none
  | c :: rest =>
    match rest.dropWhile (· != '"') with
    | [] => none
    | _ :: after =>
      let value := c :: rest.takeWhile (· != '"')
      if value.all isQuotable then some (value, after) else none

/-- A value and what follows the semicolon behind it. -/
def value? (s : List Char) : Option (List Char × List Char) :=
  match s with
  | '"' :: inside =>
    match quoted? inside with
    | none => none
    | some (value, after) =>
      match after.dropWhile (· == ' ') with
      | [] => some (value, [])
      | ';' :: rest => some (value, rest)
      | _ => none
  | _ =>
    let value := s.takeWhile isToken
    match s.dropWhile isToken with
    | [] => some (value, [])
    | ';' :: rest => if value.isEmpty then none else some (value, rest)
    | _ => none

/-- Reads parameters. Each one takes a character at least. -/
def parametersFrom (s : List Char) : Nat → Option (List (String × String))
  | 0 => if s.isEmpty then some [] else none
  | fuel + 1 => do
    match s.dropWhile (· == ' ') with
    | [] => some []
    | s =>
      let name := s.takeWhile isToken
      match s.dropWhile isToken with
      | '=' :: rest =>
        if name.isEmpty then none
        else
          let (value, rest) ← value? rest
          return (lower name, String.ofList value) :: (← parametersFrom rest fuel)
      | _ => none

/-- Splits a subtype at its last `+`, unless it stands in front. -/
def splitSuffix (s : List Char) : List Char × Option (List Char) :=
  let suffix := (s.reverse.takeWhile (· != '+')).reverse
  let size := s.length - suffix.length
  if 1 < size then (s.take (size - 1), some suffix) else (s, none)

def parse? (text : String) : Option MediaType :=
  let s := text.toList
  let kind := s.takeWhile isToken
  match s.dropWhile isToken with
  | '/' :: rest =>
    let (subtype, suffix) := splitSuffix (rest.takeWhile isToken)
    let made (parameters : List (String × String)) : MediaType :=
      { kind := lower kind, subtype := lower subtype, suffix := suffix.map lower, parameters }
    match rest.dropWhile isToken with
    | [] => if kind.isEmpty then none else some (made [])
    | ';' :: more =>
      if kind.isEmpty ∨ rest.head? = some ';' then none
      else (parametersFrom more more.length).map made
    | _ => none
  | _ => none

/-- JSON by its name or its suffix. -/
def isJson (m : MediaType) : Bool :=
  m.kind == "application" && (m.subtype == "json" || m.suffix == some "json")

/-- The boundary between the parts of a form. -/
def formBoundary? (m : MediaType) : Option String :=
  if m.kind = "multipart" ∧ m.subtype = "form-data" then m.parameters.lookup "boundary" else none

end MediaType

end Relay
