import Loon.Lib.Machine
import Loon.Lib.Chan
import Loon.Lib.Chunking
import Loon.Lib.Trim
import Loon.Lib.Base64
import Loon.Lib.Linearize
import Loon.Lib.Alternate
import Loon.Lib.MediaType
import Loon.Lib.Locality
import Loon.Lib.Rendezvous
import Loon.Lib.QuotedString
import Loon.Lib.Window
import Loon.Lib.SignedInt
import Loon.Lib.Protobuf
import Loon.Server.Config
import Loon.Server.Messages
import Loon.Server.Request
import Loon.Server.Protocol
import Loon.Server.Transitions
import Loon.Server.Objects
import Loon.Server.Invariant
import Loon.Server.History
import Loon.Server.Safety
import Loon.Server.Acknowledge
import Loon.Server.Encoding
import Loon.Server.Mac
import Loon.Server.ClientManager
import Loon.Server.Discipline
import Loon.Server.ReadPump
import Loon.Server.WritePump
import Loon.Server.Serve
import Loon.Server.Interleaving
import Loon.Server.Handlers
import Loon.Server.Forwarding
import Loon.Server.Blocking
import Loon.Server.Stalled
import Loon.Server.Discarder
import Loon.Server.Shutdown
import Loon.Server.Mime
import Loon.Server.Admission
import Loon.Server.Independence
import Loon.Server.Timeouts
import Loon.Server.Disposition
import Loon.Server.Head
import Loon.Server.Provenance
import Loon.Server.FrontDoor
import Loon.Server.Connections
import Loon.Server.Registry
import Loon.Client.Url
import Loon.Client.Base64
import Loon.Client.RequestHandler
import Loon.Client.Responses
import Loon.Client.Graceful
import Loon.Client.ResponseOrder
import Loon.Client.ServeSteps
import Loon.Client.Callbacks
import Loon.Client.Client
import Loon.Client.Session
import Loon.Client.Completion
import Loon.Client.Lookups
import Loon.Client.Served
import Loon.Client.RequestLimit
import Loon.Client.Registry
import Loon.Client.ClientImpl
import Loon.Client.Steps
import Loon.Client.Stopped
import Loon.Client.Reconnect
import Loon.Client.Handles
import Loon.Client.Notify
import Loon.Client.Backoff
import Loon.Client.ManagerLoop
import Loon.Client.AutomaticIdling
import Loon.Client.SharedClient
import Loon.Client.Bookkeeping
import Loon.Client.Idling
import Loon.Client.SharedCalls
import Loon.Client.SharedNotify
import Loon.Client.SharedPaths
import Loon.Client.Ledger
import Loon.Lib.LockOrder
import Loon.Client.Locks
import Loon.Client.Deadlock
import Loon.Client.BufferedSend
import Loon.GoClient.Respond
import Loon.GoClient.Grammar
import Loon.GoClient.Pumps
import Loon.GoClient.Cancellation
import Loon.GoClient.Chunks
import Loon.GoClient.Registration
import Loon.GoClient.Lifecycle
import Loon.GoClient.Teardown
import Loon.Link.Link
import Loon.Link.Conversation
import Loon.Link.Answers
import Loon.Link.Crossing
import Loon.Link.Admission
import Loon.Link.Receive
import Loon.Link.Delivery
import Loon.Link.ReadLimit
import Loon.Link.Relay
import Loon.Link.EndToEnd
import Loon.Link.Confirmation
import Loon.Link.Caching
