import Relay.Text.Decimal
import Relay.Text.Hex
import Relay.Text.Utf8

/-!
# Reading JSON

Values are read from the front of a byte string, and a fault is one of two: the bytes are no
JSON, or a value is not of the kind that is asked for. A value of the wrong kind is looked at as
far as needed to tell which of the two it is. Values that nobody asks for are passed over; their
texts need not be Unicode.
-/

namespace Relay.Json

inductive Fault where
  | malformed
  /-- A value of another kind than is asked for, or a member missing or given twice. -/
  | wrongShape
  deriving DecidableEq

/-- A reader takes a value off the front of a byte string. -/
abbrev Reader := StateT Bytes (Except Fault)

/-- A reader of what can be recognised or not. -/
def Reader.of {α : Type} (recognise : Bytes → Option (α × Bytes)) : Reader α := fun bs =>
  match recognise bs with
  | some r => .ok r
  | none => .error .malformed

def code (c : Char) : UInt8 := UInt8.ofNat c.toNat

def isBlank (b : UInt8) : Bool :=
  b == code ' ' || b == code '\n' || b == code '\r' || b == code '\t'

def skipBlanks (bs : Bytes) : Bytes := bs.dropWhile isBlank

/-! ### Texts -/

/-- What a letter after a backslash stands for, but `u`. -/
def shortEscape? (b : UInt8) : Option UInt8 :=
  if b = code '"' ∨ b = code '\\' ∨ b = code '/' then some b
  else if b = code 'b' then some 8
  else if b = code 'f' then some 12
  else if b = code 'n' then some 10
  else if b = code 'r' then some 13
  else if b = code 't' then some 9
  else none

/-- Where in a text a byte is read. A character above U+FFFF is written as two code units, the
first of which waits for the second. -/
inductive TextState where
  | plain
  | escaped
  /-- Some digits of a code unit are read, with so many to come. -/
  | unit (first : Option Nat) (value left : Nat)
  /-- A first code unit is read, and a backslash comes next. -/
  | paired (first : Nat)
  | pairedEscape (first : Nat)

/-- The character that a code unit completes, or nothing if another one must follow. -/
def finishUnit (first : Option Nat) (value : Nat) : Option (Option Nat) :=
  let isHigh := 0xd800 ≤ value ∧ value < 0xdc00
  let isLow := 0xdc00 ≤ value ∧ value < 0xe000
  match first with
  | none => if isHigh then some none else if isLow then none else some (some value)
  | some high =>
    if isLow then some (some (0x10000 + 0x400 * (high - 0xd800) + (value - 0xdc00))) else none

/-- Puts the bytes of a character on a reversed byte string. -/
def pushChar (acc : Bytes) (n : Nat) : Bytes :=
  (Text.Utf8.encodeChar (Char.ofNat n)).reverse ++ acc

/-- The bytes of a text up to its closing quote and what follows, with those before in reverse
in `acc`. -/
def textFrom (acc : Bytes) : TextState → Bytes → Option (Bytes × Bytes)
  | _, [] => none
  | .plain, b :: rest =>
    if b = code '"' then some (acc.reverse, rest)
    else if b < 32 then none
    else if b = code '\\' then textFrom acc .escaped rest
    else textFrom (b :: acc) .plain rest
  | .escaped, b :: rest =>
    match shortEscape? b with
    | some c => textFrom (c :: acc) .plain rest
    | none => if b = code 'u' then textFrom acc (.unit none 0 4) rest else none
  | .unit first value left, b :: rest =>
    match Text.Hex.value? b.toNat with
    | none => none
    | some d =>
      let value := 16 * value + d
      if 1 < left then textFrom acc (.unit first value (left - 1)) rest
      else
        match finishUnit first value with
        | none => none
        | some none => textFrom acc (.paired value) rest
        | some (some n) => textFrom (pushChar acc n) .plain rest
  | .paired first, b :: rest =>
    if b = code '\\' then textFrom acc (.pairedEscape first) rest else none
  | .pairedEscape first, b :: rest =>
    if b = code 'u' then textFrom acc (.unit (some first) 0 4) rest else none

/-- A text after its opening quote. -/
def recogniseText (bs : Bytes) : Option (String × Bytes) := do
  let (content, rest) ← textFrom [] .plain bs
  let s ← (Text.Utf8.toText content).toOption
  return (s, rest)

/-- What follows a text that nobody asks for, read from inside it: after a backslash, or with so
many hexadecimal digits to come. -/
def afterText (escaped : Bool) (digits : Nat) : Bytes → Option Bytes
  | [] => none
  | b :: rest =>
    if 0 < digits then
      if (Text.Hex.value? b.toNat).isSome then afterText false (digits - 1) rest else none
    else if escaped then
      if b = code 'u' then afterText false 4 rest
      else if (shortEscape? b).isSome then afterText false 0 rest
      else none
    else if b = code '"' then some rest
    else if b < 32 then none
    else afterText (b = code '\\') 0 rest

/-! ### Numbers and words -/

def isDigit (b : UInt8) : Bool := code '0' ≤ b && b ≤ code '9'

/-- The digits in front, at least one. -/
def recogniseDigits (bs : Bytes) : Option (Bytes × Bytes) :=
  let ds := bs.takeWhile isDigit
  if ds.isEmpty then none else some (ds, bs.dropWhile isDigit)

/-- The value of decimal digits. -/
def ofDigits (ds : Bytes) : Nat := Text.Decimal.ofDigits (ds.map fun b => Char.ofNat b.toNat)

/-- A number without its sign: a significand below 2^64, and the power of ten it is multiplied
with. -/
structure Magnitude where
  significand : Nat
  exponent : Int

/-- Appends digits to a significand up to the first that does not fit, and leaves the others. -/
def appendDigits (significand : Nat) : Bytes → Nat × Bytes
  | [] => (significand, [])
  | b :: rest =>
    let longer := 10 * significand + (b - code '0').toNat
    if longer < 2 ^ 64 then appendDigits longer rest else (significand, b :: rest)

/-- The digits in front of the point and behind. Those that do not fit are dropped, of which the
ones in front still count as zeros. -/
def Magnitude.ofDigits (whole fraction : Bytes) (exponent : Int) : Magnitude :=
  let (significand, zeros) := appendDigits 0 whole
  let (significand, dropped) := appendDigits significand fraction
  ⟨significand, exponent + zeros.length - (fraction.length - dropped.length : Nat)⟩

/-- An exponent, if there is one. -/
def recogniseExponent (bs : Bytes) : Option (Int × Bytes) :=
  match bs with
  | [] => some (0, [])
  | e :: rest =>
    if e = code 'e' ∨ e = code 'E' then
      let (negative, rest) := match rest with
        | s :: more =>
          if s = code '-' then (true, more) else if s = code '+' then (false, more)
          else (false, rest)
        | [] => (false, [])
      (recogniseDigits rest).map fun (ds, rest) =>
        (if negative then -(ofDigits ds : Int) else ofDigits ds, rest)
    else some (0, bs)

/-- A number without its sign. A zero in front is followed by no digit. -/
def recogniseMagnitude (bs : Bytes) : Option (Magnitude × Bytes) := do
  let (whole, rest) ← recogniseDigits bs
  if whole.head? = some (code '0') ∧ whole.length ≠ 1 then none
  else
    let (fraction, rest) ← match rest with
      | p :: more => if p = code '.' then recogniseDigits more else some ([], rest)
      | [] => some ([], [])
    let (exponent, rest) ← recogniseExponent rest
    return (.ofDigits whole fraction exponent, rest)

/-- The nearest number of 53 significant bits, the even one of two. -/
def nearestDouble (n : Nat) : Nat :=
  let step := 2 ^ (n.log2 + 1 - 53)
  let steps := n / step
  let doubled := 2 * (n % step)
  if step < doubled ∨ doubled = step ∧ steps % 2 = 1 then (steps + 1) * step else steps * step

/-- Is in the range of doubles: the significand and the power of ten are rounded first, and then
their product. -/
def Magnitude.isFinite (m : Magnitude) : Bool :=
  if m.exponent < 0 then true
  else if 308 < m.exponent then m.significand = 0
  else
    let power := nearestDouble (10 ^ m.exponent.toNat)
    nearestDouble (nearestDouble m.significand * power) < 2 ^ 1024

def recogniseNumber (bs : Bytes) : Option (Magnitude × Bytes) :=
  match bs with
  | [] => none
  | b :: rest => recogniseMagnitude (if b = code '-' then rest else bs)

/-- What follows a word. -/
def afterWord (word : String) (bs : Bytes) : Option Bytes :=
  let word := Text.Utf8.ofText word
  if word.isPrefixOf bs then some (bs.drop word.length) else none

/-! ### Values that nobody asks for -/

inductive Bracket where
  | array
  | object
  deriving DecidableEq

inductive Token where
  | opening (b : Bracket)
  | closing (b : Bracket)
  | comma
  | colon
  | text
  /-- A number or a word. -/
  | scalar
  deriving DecidableEq

/-- The token in front, after blanks. -/
def recogniseToken (bs : Bytes) : Option (Token × Bytes) :=
  match skipBlanks bs with
  | [] => none
  | b :: rest =>
    if b = code '[' then some (.opening .array, rest)
    else if b = 0x7b then some (.opening .object, rest)
    else if b = code ']' then some (.closing .array, rest)
    else if b = 0x7d then some (.closing .object, rest)
    else if b = code ',' then some (.comma, rest)
    else if b = code ':' then some (.colon, rest)
    else if b = code '"' then (afterText false 0 rest).map (.text, ·)
    else if b = code 'n' then (afterWord "ull" rest).map (.scalar, ·)
    else if b = code 't' then (afterWord "rue" rest).map (.scalar, ·)
    else if b = code 'f' then (afterWord "alse" rest).map (.scalar, ·)
    else (recogniseNumber (b :: rest)).map fun (_, rest) => (.scalar, rest)

inductive Expected where
  | value
  | firstValue
  | name
  | firstName
  | colon
  /-- A comma or the closing bracket. -/
  | more

/-- What may follow a token inside the brackets that are open, the innermost first. -/
def follow (opened : List Bracket) (e : Expected) (t : Token) :
    Option (List Bracket × Expected) :=
  match e, t, opened with
  | .value, .text, _ | .value, .scalar, _ | .firstValue, .text, _ | .firstValue, .scalar, _ =>
    some (opened, .more)
  | .value, .opening .array, _ | .firstValue, .opening .array, _ =>
    some (.array :: opened, .firstValue)
  | .value, .opening .object, _ | .firstValue, .opening .object, _ =>
    some (.object :: opened, .firstName)
  | .firstValue, .closing .array, .array :: outer => some (outer, .more)
  | .name, .text, _ | .firstName, .text, _ => some (opened, .colon)
  | .firstName, .closing .object, .object :: outer => some (outer, .more)
  | .colon, .colon, _ => some (opened, .value)
  | .more, .comma, .array :: _ => some (opened, .value)
  | .more, .comma, .object :: _ => some (opened, .name)
  | .more, .closing b, b' :: outer => if b = b' then some (outer, .more) else none
  | _, _, _ => none

/-- What follows a value, read from inside it. Each token takes a byte. -/
def afterValueFrom (opened : List Bracket) (e : Expected) (bs : Bytes) : Nat → Option Bytes
  | 0 => none
  | fuel + 1 =>
    match recogniseToken bs with
    | none => none
    | some (t, rest) =>
      match follow opened e t with
      | none => none
      | some ([], .more) => some rest
      | some (opened, e) => afterValueFrom opened e rest fuel

def afterValue (bs : Bytes) : Option Bytes := afterValueFrom [] .value bs bs.length

/-! ### Readers -/

/-- The first byte after blanks, left where it is. -/
def peek : Reader UInt8 := do
  modify skipBlanks
  match ← get with
  | [] => throw .malformed
  | b :: _ => return b

/-- Takes the byte that was looked at. -/
def advance : Reader Unit := modify List.tail

def expect (c : Char) : Reader Unit := do
  if (← peek) = code c then advance else throw .malformed

/-- A value of a kind that is not asked for. -/
def wrongKind {α : Type} (b : UInt8) : Reader α := do
  if b = code '[' ∨ b = 0x7b then throw .wrongShape
  let m ← Reader.of fun bs =>
    if b = code '"' then (recogniseText bs.tail).map fun (_, rest) => (none, rest)
    else if b = code 'n' then (afterWord "null" bs).map (none, ·)
    else if b = code 't' then (afterWord "true" bs).map (none, ·)
    else if b = code 'f' then (afterWord "false" bs).map (none, ·)
    else (recogniseNumber bs).map fun (m, rest) => (some m, rest)
  if m.all Magnitude.isFinite then throw .wrongShape else throw .malformed

/-- A text. -/
def readText : Reader String := do
  let b ← peek
  if b = code '"' then
    advance
    Reader.of recogniseText
  else wrongKind b

def skipValue : Reader Unit := Reader.of fun bs => (afterValue bs).map ((), ·)

/-- Reads a value from the front of a byte string. What follows it is not looked at. -/
def read {α : Type} (reader : Reader α) (bs : Bytes) : Except Fault α := (·.1) <$> reader.run bs

end Relay.Json
