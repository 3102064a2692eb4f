import Relay.Config.Address
import Relay.Text.Blank
import Relay.Text.Quoted

/-!
# Configuration

Settings come from environment variables. A value that cannot be read leaves its default, and
channels have room for at least one element whatever the variables say.
-/

namespace Relay

structure Config where
  httpAddress : Address := .v4 ⟨0, 0, 0, 0⟩ 40601
  databasePath : String := "./cafe/cafe.db"
  contentStorePath : String := "./cafe/content"
  /-- The longest request body in bytes. -/
  maxBodySize : Nat := 52428800
  /-- The largest stored object in bytes. -/
  maxObjectSize : Nat := 52428800
  /-- Notices that may wait; more are dropped. -/
  notifyQueueCapacity : Nat := 1024
  /-- The longest a notice may take, in milliseconds. -/
  notifyTimeout : Nat := 5000
  /-- Results a query may be ahead of the response. -/
  queryBuffer : Nat := 1
  instanceName : String := "Cafe"
  /-- What admin requests must present. Without one they are all refused. -/
  adminToken : Option String := none

namespace Config

/-- Reads a number of 64 bits, with white space around it. -/
def readWord? (s : String) : Option Nat :=
  match Text.Decimal.readNatural? (Text.trim s.toList) with
  | some n => if n < 2 ^ 64 then some n else none
  | none => none

def word (lookup : String → Option String) (name : String) (default : Nat) : Nat :=
  ((lookup name).bind readWord?).getD default

/-- The configuration that environment variables describe. -/
def ofVariables (lookup : String → Option String) : Config :=
  let d : Config := {}
  let address? := (lookup "HTTP_ADDR").bind fun s => Address.parse? (Text.trim s.toList)
  { httpAddress := address?.getD d.httpAddress
    databasePath := (lookup "DATABASE_PATH").getD d.databasePath
    contentStorePath := (lookup "CONTENT_STORE_PATH").getD d.contentStorePath
    maxBodySize := word lookup "MAX_BODY_SIZE" d.maxBodySize
    maxObjectSize := word lookup "MAX_OBJECT_SIZE" d.maxObjectSize
    notifyQueueCapacity := max 1 (word lookup "NOTIFY_QUEUE_CAPACITY" d.notifyQueueCapacity)
    notifyTimeout := word lookup "NOTIFY_TIMEOUT_MS" d.notifyTimeout
    queryBuffer := max 1 (word lookup "QUERY_BUFFER" d.queryBuffer)
    instanceName := (lookup "INSTANCE_NAME").getD d.instanceName
    adminToken := (lookup "ADMIN_TOKEN").filter (· ≠ "") }

/-- Milliseconds as seconds without trailing zeros, or as they are below one second. -/
def durationText (ms : Nat) : String :=
  if ms = 0 then "0ns"
  else if ms < 1000 then s!"{ms}ms"
  else
    let digits := Text.Decimal.padded 3 (ms % 1000)
    let kept := (digits.reverse.dropWhile (· == '0')).reverse
    let fraction := if kept.isEmpty then "" else "." ++ String.ofList kept
    s!"{ms / 1000}{fraction}s"

/-- All settings on one line for logs. The admin token is not shown. -/
def describe (c : Config) : String :=
  let token := if c.adminToken.isSome then "Some(\"<redacted>\")" else "None"
  let fields :=
    [("http_addr", c.httpAddress.text),
     ("database_path", Text.Quoted.text c.databasePath),
     ("content_store_path", Text.Quoted.text c.contentStorePath),
     ("max_body_size", toString c.maxBodySize),
     ("max_object_size", toString c.maxObjectSize),
     ("notify_queue_capacity", toString c.notifyQueueCapacity),
     ("notify_timeout", durationText c.notifyTimeout),
     ("query_buffer", toString c.queryBuffer),
     ("instance_name", Text.Quoted.text c.instanceName),
     ("admin_token", token)]
  let shown := fields.map fun (name, value) => s!"{name}: {value}"
  "ServerConfig \x7b " ++ String.intercalate ", " shown ++ " \x7d"

end Config

end Relay
