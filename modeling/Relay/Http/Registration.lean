import Relay.Json.Reading

/-!
# Registrations

What an admin sends to register a client: an object with the members `id` and `address`, or an
array of the two. Other members are passed over.
-/

namespace Relay

structure Registration where
  id : String
  address : String
  deriving DecidableEq

namespace Registration

/-- The members of an object that are left, and its closing brace. -/
def readMembers (first : Bool) (id address : Option String) : Nat → Json.Reader Registration
  | 0 => throw .malformed
  | fuel + 1 => do
    if (← Json.peek) = 0x7d then
      Json.advance
      match id, address with
      | some id, some address => return { id, address }
      | _, _ => throw .wrongShape
    else
      if !first then Json.expect ','
      if (← Json.peek) ≠ Json.code '"' then throw .malformed
      let name ← Json.readText
      if name = "id" ∧ id.isSome ∨ name = "address" ∧ address.isSome then throw .wrongShape
      Json.expect ':'
      if name = "id" then
        let value ← Json.readText
        readMembers false (some value) address fuel
      else if name = "address" then
        let value ← Json.readText
        readMembers false id (some value) fuel
      else
        Json.skipValue
        readMembers false id address fuel

/-- A text in an array. -/
def readElement (first : Bool) : Json.Reader String := do
  if (← Json.peek) = Json.code ']' then throw .wrongShape
  if !first then
    Json.expect ','
    if (← Json.peek) = Json.code ']' then throw .malformed
  Json.readText

/-- Each member takes a byte, so the bytes that are left are enough steps. -/
def reader : Json.Reader Registration := do
  let b ← Json.peek
  if b = 0x7b then
    Json.advance
    readMembers true none none (← get).length
  else if b = Json.code '[' then
    Json.advance
    let id ← readElement true
    let address ← readElement false
    Json.expect ']'
    return { id, address }
  else Json.wrongKind b

def ofBytes (bs : Bytes) : Except Json.Fault Registration := Json.read reader bs

end Registration

end Relay
