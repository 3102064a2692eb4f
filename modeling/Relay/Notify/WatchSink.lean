import Relay.Notify.Queue
import Relay.Notify.Watchers

/-!
# Telling watchers

The sink that the relay's notification worker uses: a client is told over its current watch
connection. A client without one is not told; a full connection is waited for.
-/

namespace Relay

/-- An attempt is a send in progress, or nothing if the client has no connection. -/
abbrev WatchTicket := Option SendId

/-- The sink over the watch connections, for notices of the given date. -/
def Watchers.sink (date : Instant) : Sink Watchers WatchTicket where
  start := fun r client =>
    match r.lookUp client date with
    | some (id, r) => (some id, r)
    | none => (none, r)
  poll := fun r ticket _ =>
    match ticket with
    | none => (some .failed, r)
    | some id =>
      let r := r.attempt id
      match r.result? id with
      | some (.ok ()) => (some .succeeded, r.forget id)
      | some (.error _) => (some .failed, r.forget id)
      | none => (none, r)
  lasts := fun _ _ => none
  abandon := fun r ticket =>
    match ticket with
    | none => r
    | some id => r.forget id

end Relay
