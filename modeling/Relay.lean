import Relay.Http.Answering
import Relay.Proofs.Text.Utf8
import Relay.Proofs.Wire.Canonical
import Relay.Proofs.Text.Decimal
import Relay.Proofs.Instant.Stored
import Relay.Proofs.Instant.Scanning
import Relay.Proofs.Frame
import Relay.Proofs.Cafe.Inbox
import Relay.Proofs.Search.Results
import Relay.Proofs.Search.Streaming
import Relay.Proofs.Search.Answering
import Relay.Proofs.Content.Durability
import Relay.Proofs.Cafe.Storing
import Relay.Proofs.Content.Naming
import Relay.Proofs.Records.Messages
import Relay.Proofs.Cafe.History
import Relay.Proofs.Notify.Connections
import Relay.Proofs.Notify.Worker
import Relay.Proofs.Cafe.Wakeup
import Relay.Proofs.Http.Recipients
import Relay.Proofs.Notify.Shift
import Relay.Proofs.Records.Maps
import Relay.Proofs.Search.Talk
import Relay.Proofs.Search.Cancellation
import Relay.Proofs.Cafe.Views
import Relay.Proofs.Http.Peers
import Relay.Proofs.Http.Isolation
import Relay.Proofs.Http.Gates
import Relay.Proofs.Http.Watching
import Relay.Proofs.Notify.Registry
import Relay.Proofs.Cafe.Outcome
import Relay.Proofs.Frame.Buffer
import Relay.Proofs.Search.Endings
import Relay.Proofs.Content.Closure
import Relay.Proofs.Content.Spelling
import Relay.Proofs.Records.Chronology
import Relay.Proofs.Content.Bounds
import Relay.Proofs.Cafe.Release
import Relay.Proofs.Http.Forms
import Relay.Proofs.Content.Health
import Relay.Proofs.Cafe.Keeping
import Relay.Proofs.Http.Uploads
import Relay.Proofs.Config.Capacities
