import Relay.Content.Id
import Relay.Wire.Basic

/-!
# Nodes

A structured object: data, and named links to other objects. The hash of its written form is
its content id, so the form has one spelling per node.
-/

namespace Relay

/-- A link tells the size of what it points to; the size is taken as given. -/
structure Link where
  name : String
  target : ContentId
  size : UInt64
  deriving DecidableEq

structure Node where
  data : Bytes
  links : List Link
  deriving DecidableEq

namespace ContentId

/-- On the wire a codec is a case number. -/
def wire (id : ContentId) : Bytes :=
  Wire.putU32 (match id.codec with | .raw => 0 | .node => 1) ++ id.digest.bytes

def reader : Wire.Reader ContentId := do
  let codec := if (← Wire.getCase 2) = 0 then .raw else .node
  match Digest.ofBytes? (← Wire.take 32) with
  | some digest => return ⟨codec, digest⟩
  | none => throw .endOfInput

end ContentId

namespace Link

def wire (l : Link) : Bytes := Wire.putText l.name ++ l.target.wire ++ Wire.putU64 l.size.toNat

def reader : Wire.Reader Link := do
  let name ← Wire.getText
  let target ← ContentId.reader
  let size ← Wire.getNumber 8
  return { name, target, size := UInt64.ofNat size }

end Link

namespace Node

def toBytes (n : Node) : Bytes := Wire.putBytes n.data ++ Wire.putList Link.wire n.links

def reader : Wire.Reader Node := do
  let data ← Wire.getBytes
  let links ← Wire.getList Link.reader
  return { data, links }

def ofBytes (bs : Bytes) : Except Wire.Fault Node := Wire.decode reader bs

/-- The ids a node links to, in the order of the links. -/
def targets (n : Node) : List ContentId := n.links.map Link.target

end Node

end Relay
