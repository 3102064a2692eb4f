import Relay.Text.Base58
import Relay.Text.Quoted

/-!
# Peer ids

A peer is named by a hash of its key: the code of the hash function, the length of the digest
and the digest, written to base 58. Code 18 stands for SHA-256; code 0 for no hash, where the
digest is a short key itself. Code and length are read as numbers of seven bits a byte, and
written back in one byte each.
-/

namespace Relay

structure PeerId where
  code : Nat
  digest : Bytes
  supported : code = 18 ∧ digest.length ≤ 64 ∨ code = 0 ∧ digest.length ≤ 42
  deriving DecidableEq

namespace PeerId

def bytes (p : PeerId) : Bytes :=
  UInt8.ofNat p.code :: UInt8.ofNat p.digest.length :: p.digest

def text (p : PeerId) : String := String.ofList (Text.Base58.encode p.bytes)

/-- Why a text is no peer id. -/
inductive Fault where
  | notBase58 (fault : Text.Base58.Fault)
  | badHash
  | unsupportedCode (code : Nat)
  deriving DecidableEq

def Fault.message : Fault → String
  | .notBase58 (.badCharacter c position) =>
    let shown := Text.Quoted.char c
    s!"base-58 decode error: provided string contained invalid character {shown} at byte {position}"
  | .notBase58 (.notAscii position) =>
    "base-58 decode error: provided string contained non-ascii character starting at byte " ++
      toString position
  | .badHash => "invalid multihash"
  | .unsupportedCode code => s!"unsupported multihash code '{code}'"

/-- Reads a number of 64 bits, seven bits a byte and the lowest first, from its byte in `place`
on. The last byte has no high bit, and is zero only if it is the first too; there are ten bytes
at most. -/
def readNumber (place n : Nat) : Bytes → Option (Nat × Bytes)
  | [] => none
  | b :: rest =>
    let n := (n + b.toNat % 128 * 2 ^ (7 * place)) % 2 ^ 64
    if b < 128 then if b = 0 ∧ place ≠ 0 then none else some (n, rest)
    else if place = 9 then none
    else readNumber (place + 1) n rest

/-- Reads a code, a length of at most 64, and a digest of that length. -/
def readHash (bs : Bytes) : Option (Nat × Bytes) := do
  let (code, bs) ← readNumber 0 0 bs
  let (length, digest) ← readNumber 0 0 bs
  if length ≤ 64 ∧ digest.length = length then some (code, digest) else none

def ofBytes (bs : Bytes) : Except Fault PeerId :=
  match readHash bs with
  | none => .error .badHash
  | some (code, digest) =>
    if supported : code = 18 ∧ digest.length ≤ 64 ∨ code = 0 ∧ digest.length ≤ 42 then
      .ok { code, digest, supported }
    else .error (.unsupportedCode code)

def parse (s : String) : Except Fault PeerId :=
  match Text.Base58.decode s.toList with
  | .error fault => .error (.notBase58 fault)
  | .ok bs => ofBytes bs

end PeerId

end Relay
