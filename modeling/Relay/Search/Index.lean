import Relay.Frame
import Relay.Records.Basic
import Relay.Search.Producer

/-!
# The mailbox index

A query finds the snapshots that the querying peer has stored, the newest first. Snapshots whose
result fits no frame are passed over and do not count towards the limit.
-/

namespace Relay.Index

/-- The result for a snapshot. -/
def result (s : Snapshot) : QueryResult :=
  { id := s.id, date := s.updated, value := s.ciphertext }

def fits (e : Envelope) : Bool := e.toBytes.length ≤ Frame.maxPayload

/-- The results for a listing. A limit of 0 stands for all. -/
def results (limit : Nat) (snapshots : List Snapshot) : List Envelope :=
  let all := (snapshots.map fun s => (result s).wrap).filter fits
  if limit = 0 then all else all.take limit

/-- What the index answers to a query, given the peer's snapshots. -/
def emissions (query : Envelope) (listing : Except RecordError (List Snapshot)) :
    List Emission :=
  match query.query with
  | .error fault => [.fail (.invalid fault.message)]
  | .ok q =>
    match listing with
    | .error e => [.fail (.index e.message)]
    | .ok snapshots => (results q.limit.toNat snapshots).map .item

end Relay.Index
