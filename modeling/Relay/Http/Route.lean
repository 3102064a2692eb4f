import Relay.Http.Message

/-!
# Routes

The paths that the relay knows, each with the methods it takes. Segments that name something are
given as they stand in the path; the last one of a path is not empty.
-/

namespace Relay

inductive Route where
  | pins
  | pin (id : String)
  | thread (id : String)
  | inbox (sender recipient : String)
  | watch
  | search
  | health
  | info
  | status
  | clients
  deriving DecidableEq

namespace Route

/-- Cuts at slashes. -/
def segments : List Char → List (List Char)
  | [] => [[]]
  | c :: rest =>
    if c = '/' then [] :: segments rest
    else
      match segments rest with
      | [] => [[c]]
      | s :: more => (c :: s) :: more

def ofSegments? : List String → Option Route
  | ["", ""] => some info
  | ["", "health"] => some health
  | ["", "admin", "status"] => some status
  | ["", "admin", "clients"] => some clients
  | ["", "cafe", "v1", "pin"] => some pins
  | ["", "cafe", "v1", "pin", id] => if id = "" then none else some (pin id)
  | ["", "cafe", "v1", "threads", id] => if id = "" then none else some (thread id)
  | ["", "cafe", "v1", "inbox", "watch"] => some watch
  | ["", "cafe", "v1", "inbox", sender, recipient] =>
    if recipient = "" then none else some (inbox sender recipient)
  | ["", "cafe", "v1", "search"] => some search
  | _ => none

def ofPath? (path : List Char) : Option Route :=
  ofSegments? ((segments path).map String.ofList)

/-- Only peers that say who they are may use these. -/
def needsPeer : Route → Bool
  | pins | pin _ | thread _ | inbox _ _ | watch | search => true
  | health | info | status | clients => false

def methods : Route → List Method
  | pins | inbox _ _ | search | clients => [.post]
  | pin _ => [.delete]
  | thread _ => [.put, .delete]
  | watch | health | info | status => [.get, .head]

def allowed (r : Route) : String := String.intercalate "," (r.methods.map Method.name)

end Route

end Relay
