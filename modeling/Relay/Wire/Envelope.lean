import Relay.Wire.Basic

/-!
# Envelopes

What peers send is wrapped in an envelope: a kind, a payload of that kind and a signature. The
relay does not look at signatures. Opening an envelope checks its kind before the payload is
read.
-/

namespace Relay

/-- What an envelope carries. -/
inductive Kind where
  | threadUpdate
  | query
  | queryResult
  deriving DecidableEq, Repr

def Kind.index : Kind → Nat
  | threadUpdate => 0
  | query => 1
  | queryResult => 2

def Kind.ofIndex : Nat → Kind
  | 0 => threadUpdate
  | 1 => query
  | _ => queryResult

/-- The name of a kind in error texts. -/
def Kind.name : Kind → String
  | threadUpdate => "ThreadEnvelope"
  | query => "Query"
  | queryResult => "QueryResult"

structure Envelope where
  kind : Kind
  payload : Bytes
  signature : Bytes := []
  deriving DecidableEq

/-- An update of a thread for a client that is offline: a node, and the block it points to if
that is shipped along. -/
structure ThreadUpdate where
  thread : String
  node : Bytes
  block : Option Bytes
  deriving DecidableEq

/-- Asks for the thread snapshots of the querying peer. -/
structure Query where
  id : String
  /-- The most results wanted; 0 stands for all. -/
  limit : UInt32
  deriving DecidableEq

/-- A thread snapshot found by a query. -/
structure QueryResult where
  id : String
  date : Instant
  value : Bytes
  deriving DecidableEq

namespace ThreadUpdate

def toBytes (u : ThreadUpdate) : Bytes :=
  Wire.putText u.thread ++ Wire.putBytes u.node ++ Wire.putOption Wire.putBytes u.block

def reader : Wire.Reader ThreadUpdate := do
  let thread ← Wire.getText
  let node ← Wire.getBytes
  let block ← Wire.getOption Wire.getBytes
  return { thread, node, block }

end ThreadUpdate

namespace Query

/-- There is one kind of query, written as case 0. -/
def toBytes (q : Query) : Bytes :=
  Wire.putText q.id ++ Wire.putU32 0 ++ Wire.putU32 q.limit.toNat

def reader : Wire.Reader Query := do
  let id ← Wire.getText
  let _ ← Wire.getCase 1
  let limit ← Wire.getNumber 4
  return { id, limit := UInt32.ofNat limit }

end Query

namespace QueryResult

def toBytes (r : QueryResult) : Bytes :=
  Wire.putText r.id ++ Wire.putText r.date.text ++ Wire.putBytes r.value

def reader : Wire.Reader QueryResult := do
  let id ← Wire.getText
  let date ← Wire.getDate
  let value ← Wire.getBytes
  return { id, date, value }

end QueryResult

namespace Envelope

/-- Why an envelope cannot be read or opened. -/
inductive Fault where
  | malformed (fault : Wire.Fault)
  | unexpected (expected found : Kind)
  | malformedPayload (fault : Wire.Fault)
  deriving DecidableEq

def Fault.message : Fault → String
  | .malformed fault => s!"Malformed envelope: {fault.message}"
  | .unexpected expected found =>
    s!"Unexpected payload type: expected {expected.name}, got {found.name}"
  | .malformedPayload fault => s!"Malformed payload: {fault.message}"

def toBytes (e : Envelope) : Bytes :=
  Wire.putU32 e.kind.index ++ Wire.putBytes e.payload ++ Wire.putBytes e.signature

def reader : Wire.Reader Envelope := do
  let kind := Kind.ofIndex (← Wire.getCase 3)
  let payload ← Wire.getBytes
  let signature ← Wire.getBytes
  return { kind, payload, signature }

def ofBytes (bs : Bytes) : Except Fault Envelope := (Wire.decode reader bs).mapError .malformed

/-- Opens an envelope as one kind. -/
def openAs {α : Type} (kind : Kind) (reader : Wire.Reader α) (e : Envelope) : Except Fault α :=
  if e.kind = kind then (Wire.decode reader e.payload).mapError .malformedPayload
  else .error (.unexpected kind e.kind)

def threadUpdate (e : Envelope) : Except Fault ThreadUpdate :=
  e.openAs .threadUpdate ThreadUpdate.reader

def query (e : Envelope) : Except Fault Query := e.openAs .query Query.reader

def queryResult (e : Envelope) : Except Fault QueryResult :=
  e.openAs .queryResult QueryResult.reader

end Envelope

namespace ThreadUpdate

def wrap (u : ThreadUpdate) : Envelope := { kind := .threadUpdate, payload := u.toBytes }

end ThreadUpdate

namespace Query

def wrap (q : Query) : Envelope := { kind := .query, payload := q.toBytes }

end Query

namespace QueryResult

def wrap (r : QueryResult) : Envelope := { kind := .queryResult, payload := r.toBytes }

end QueryResult

end Relay
