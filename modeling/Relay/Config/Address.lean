import Relay.Text.Decimal

/-!
# Socket addresses

An IPv4 or IPv6 address with a port, and its text. The longest run of zero groups is left out
of an IPv6 address if it has more than one, and an address that stands for an IPv4 one ends in
dotted form.
-/

namespace Relay

structure Ipv4 where
  a : UInt8
  b : UInt8
  c : UInt8
  d : UInt8
  deriving DecidableEq

structure Ipv6 where
  groups : Vector UInt16 8
  deriving DecidableEq

inductive Address where
  | v4 (ip : Ipv4) (port : UInt16)
  | v6 (ip : Ipv6) (scope : UInt32) (port : UInt16)
  deriving DecidableEq

/-! ### Writing -/

namespace Ipv4

def text (ip : Ipv4) : String :=
  s!"{ip.a.toNat}.{ip.b.toNat}.{ip.c.toNat}.{ip.d.toNat}"

end Ipv4

namespace Ipv6

def groupText (g : UInt16) : String := String.ofList (Nat.toDigits 16 g.toNat)

def groupsText (gs : List UInt16) : String := String.intercalate ":" (gs.map groupText)

/-- Length and start of the first longest run of zeros; `current` is the length of the run that
ends before `position`. -/
def longestZeros (current position : Nat) (best : Nat × Nat) : List UInt16 → Nat × Nat
  | [] => best
  | g :: rest =>
    if g = 0 then
      let current := current + 1
      let best := if best.1 < current then (current, position + 1 - current) else best
      longestZeros current (position + 1) best rest
    else longestZeros 0 (position + 1) best rest

/-- The IPv4 address that `::ffff:a.b.c.d` stands for. -/
def mapped? (ip : Ipv6) : Option Ipv4 :=
  match ip.groups.toList with
  | [0, 0, 0, 0, 0, 0xffff, x, y] =>
    some ⟨(x >>> 8).toUInt8, x.toUInt8, (y >>> 8).toUInt8, y.toUInt8⟩
  | _ => none

def text (ip : Ipv6) : String :=
  match ip.mapped? with
  | some v4 => "::ffff:" ++ v4.text
  | none =>
    let gs := ip.groups.toList
    let (length, start) := longestZeros 0 0 (0, 0) gs
    if 1 < length then groupsText (gs.take start) ++ "::" ++ groupsText (gs.drop (start + length))
    else groupsText gs

end Ipv6

namespace Address

def text : Address → String
  | v4 ip port => s!"{ip.text}:{port.toNat}"
  | v6 ip scope port =>
    let scopeText := if scope = 0 then "" else s!"%{scope.toNat}"
    s!"[{ip.text}{scopeText}]:{port.toNat}"

/-! ### Reading -/

/-- A reader of one part of an address. A part that cannot be read leaves the text as it is. -/
abbrev Scanner := StateT (List Char) Option

namespace Scanner

def char (c : Char) : Scanner Unit := fun cs =>
  match cs with
  | d :: rest => if d = c then some ((), rest) else none
  | [] => none

/-- The value of a digit of either case. -/
def digitValue? (base : Nat) (c : Char) : Option Nat :=
  let n := c.toNat
  let v :=
    if 48 ≤ n ∧ n ≤ 57 then n - 48
    else if 97 ≤ n ∧ n ≤ 122 then n - 87
    else if 65 ≤ n ∧ n ≤ 90 then n - 55
    else base
  if v < base then some v else none

/-- A run of digits with its value below `bound`. -/
def digits (base bound : Nat) : Scanner (List Char × Nat) := fun cs =>
  let ds := cs.takeWhile fun c => (digitValue? base c).isSome
  let value := ds.foldl (fun n c => base * n + (digitValue? base c).getD 0) 0
  if ds.isEmpty ∨ bound ≤ value then none else some ((ds, value), cs.drop ds.length)

/-- One of four numbers up to 255, in at most three digits and without leading zeros. -/
def octet : Scanner UInt8 := do
  let (ds, n) ← digits 10 256
  guard (ds.length ≤ 3 ∧ (ds.head? = some '0' → ds.length = 1))
  return UInt8.ofNat n

def ipv4 : Scanner Ipv4 := do
  let a ← octet
  char '.'
  let b ← octet
  char '.'
  let c ← octet
  char '.'
  let d ← octet
  return ⟨a, b, c, d⟩

/-- Up to four hexadecimal digits. -/
def group : Scanner UInt16 := do
  let (ds, n) ← digits 16 65536
  guard (ds.length ≤ 4)
  return UInt16.ofNat n

def Ipv4.groups (ip : Ipv4) : List UInt16 :=
  [ip.a.toUInt16 * 256 + ip.b.toUInt16, ip.c.toUInt16 * 256 + ip.d.toUInt16]

/-- Up to `room` groups separated by colons, and whether an IPv4 address ended them. Such an
address takes the place of two groups. -/
def groups (first : Bool) : (room : Nat) → Scanner (List UInt16 × Bool)
  | 0 => return ([], false)
  | room + 1 => do
    let separator : Scanner Unit := if first then pure () else char ':'
    let dotted : Scanner Ipv4 := do
      guard (1 ≤ room)
      separator
      ipv4
    match ← optional dotted with
    | some ip => return (Ipv4.groups ip, true)
    | none =>
      match ← optional (do separator; group) with
      | none => return ([], false)
      | some g =>
        let (gs, endsDotted) ← groups false room
        return (g :: gs, endsDotted)

def ipv6 : Scanner Ipv6 := do
  let (front, endsDotted) ← groups true 8
  let all ←
    if front.length = 8 then pure front
    else do
      guard (!endsDotted)
      char ':'
      char ':'
      let (back, _) ← groups true (7 - front.length)
      pure (front ++ List.replicate (8 - front.length - back.length) 0 ++ back)
  if h : all.toArray.size = 8 then return ⟨⟨all.toArray, h⟩⟩
  failure

def port : Scanner UInt16 := do
  char ':'
  return UInt16.ofNat (← digits 10 65536).2

def scope : Scanner UInt32 := do
  char '%'
  return UInt32.ofNat (← digits 10 (2 ^ 32)).2

def address4 : Scanner Address := do
  let ip ← ipv4
  return v4 ip (← port)

def address6 : Scanner Address := do
  char '['
  let ip ← ipv6
  let scope ← optional scope
  char ']'
  return v6 ip (scope.getD 0) (← port)

end Scanner

def parse? (cs : List Char) : Option Address :=
  match (Scanner.address4 <|> Scanner.address6).run cs with
  | some (address, []) => some address
  | _ => none

end Address

end Relay
