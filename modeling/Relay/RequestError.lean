import Relay.Records.Basic

/-!
# Request errors

Why the relay refuses a request, and what it answers then.
-/

namespace Relay

inductive RequestError where
  /-- The one who asks is no registered client. -/
  | clientNotFound
  | malformedInput (reason : String)
  | storageFailure (reason : String)
  /-- A query failed, or a result fits no frame. -/
  | streamAborted (reason : String)
  | unauthorized (reason : String)
  | forbidden (reason : String)
  | conflict (reason : String)
  deriving DecidableEq

namespace RequestError

def message : RequestError → String
  | clientNotFound => "Client not found"
  | malformedInput reason => s!"Malformed input: {reason}"
  | storageFailure reason => s!"Storage failure: {reason}"
  | streamAborted reason => s!"Stream aborted: {reason}"
  | unauthorized reason => s!"Unauthorized: {reason}"
  | forbidden reason => s!"Forbidden: {reason}"
  | conflict reason => s!"Conflict: {reason}"

def status : RequestError → Nat
  | clientNotFound => 403
  | malformedInput _ => 400
  | storageFailure _ => 500
  | streamAborted _ => 400
  | unauthorized _ => 401
  | forbidden _ => 403
  | conflict _ => 409

/-- What is sent to the one who asked. A client that is not found gets no text. -/
def body : RequestError → String
  | clientNotFound => ""
  | e => e.message

def ofRecords (e : RecordError) : RequestError := .storageFailure e.message

end RequestError

end Relay
