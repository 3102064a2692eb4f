import Relay.Notify.Watchers
import Relay.Search.Response
import Relay.Text.Blank
import Relay.Text.Utf8

/-!
# Requests and answers

Header names are compared without regard to case, and the first header of a name counts. A value
with characters that do not show in ASCII counts as missing.
-/

namespace Relay

inductive Method where
  | get
  | head
  | post
  | put
  | delete
  | options
  | other (name : String)
  deriving DecidableEq

namespace Method

def name : Method → String
  | get => "GET"
  | head => "HEAD"
  | post => "POST"
  | put => "PUT"
  | delete => "DELETE"
  | options => "OPTIONS"
  | other name => name

def ofName (s : String) : Method :=
  ([get, head, post, put, delete, options].find? (·.name == s)).getD (other s)

end Method

structure Request where
  method : Method
  /-- The path, with a query behind a question mark. Scheme and host may stand in front. -/
  target : String
  headers : List (String × String) := []
  body : Bytes := []

namespace Request

/-- A character that shows in ASCII, or a tab. -/
def isVisible (c : Char) : Bool := (32 ≤ c.toNat && c.toNat < 127) || c == '\t'

/-- The value of a header, given the name in lower case. -/
def header? (r : Request) (name : String) : Option String := do
  let (_, value) ← r.headers.find? fun h => h.1.toLower == name
  if value.toList.all isVisible then some value else none

/-- Who asks: the value of the peer header without white space around it, if there is one. -/
def peer? (r : Request) : Option String := do
  let peer := Text.trim (← r.header? "x-cafe-peer").toList
  if peer.isEmpty then none else some (String.ofList peer)

/-- A character of schemes. -/
def isSchemeChar (c : Char) : Bool := c.isAlphanum || "+-.~".toList.contains c

/-- A character that ends a path, as query or fragment follow. -/
def endsPath (c : Char) : Bool := c == '?' || c == '#'

/-- What follows the scheme and the host of a target that has them. -/
def afterHost? (target : List Char) : Option (List Char) :=
  match target.dropWhile isSchemeChar with
  | ':' :: '/' :: '/' :: rest => some (rest.dropWhile fun c => !(c == '/' || endsPath c))
  | _ => none

/-- The path without the query. Behind a host it may be left out, and the root is meant. -/
def path (r : Request) : List Char :=
  let target := r.target.toList
  match afterHost? target with
  | none => target.takeWhile fun c => !endsPath c
  | some rest =>
    let path := rest.takeWhile fun c => !endsPath c
    if path.isEmpty then ['/'] else path

end Request

/-- What follows the headers of an answer. -/
inductive AnswerBody where
  | bytes (bs : Bytes)
  /-- The frames of a search, which may be broken off. -/
  | frames (r : Response)
  /-- A line for each notice of a subscription, as long as it lasts. -/
  | notices (id : SubscriptionId)

structure Answer where
  status : Nat
  headers : List (String × String) := []
  body : AnswerBody := .bytes []

namespace Answer

def withHeader (a : Answer) (name value : String) : Answer :=
  { a with headers := a.headers ++ [(name, value)] }

def ofStatus (status : Nat) : Answer := { status }

def text (status : Nat) (s : String) : Answer :=
  { status, headers := [("content-type", "text/plain; charset=utf-8")]
    body := .bytes (Text.Utf8.ofText s) }

def json (status : Nat) (s : String) : Answer :=
  { status, headers := [("content-type", "application/json")]
    body := .bytes (Text.Utf8.ofText s) }

/-- A request that is refused. One that is told nothing gets no content type either. -/
def ofError (e : RequestError) : Answer :=
  if e.body = "" then .ofStatus e.status else .text e.status e.body

/-- The answer to a request that brings nothing but its success. -/
def ofResult {α : Type} (status : Nat) : Except RequestError α → Answer
  | .ok _ => .ofStatus status
  | .error e => .ofError e

end Answer

end Relay
