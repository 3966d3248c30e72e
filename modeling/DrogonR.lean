import DrogonR.Theory.Runs
import DrogonR.Theory.Cutoff
import DrogonR.Theory.Assoc
import DrogonR.R.Value
import DrogonR.Http.Message
import DrogonR.Http.Response
import DrogonR.Http.Dispatch
import DrogonR.Http.Conservation
import DrogonR.Theory.Calls
import DrogonR.Middleware.Normalize
import DrogonR.Middleware.Chain
import DrogonR.Middleware.Wrap
import DrogonR.Middleware.Transparency
import DrogonR.Native.CppStream
import DrogonR.Native.Ordering
import DrogonR.Stream.Session
import DrogonR.Stream.Protocol
import DrogonR.Stream.Cancellation
import DrogonR.Stream.StateThreading
import DrogonR.Theory.Ledger
import DrogonR.Stream.Preservation
import DrogonR.WebSocket.Routes
import DrogonR.Theory.Pool
import DrogonR.WebSocket.Sessions
import DrogonR.WebSocket.Slots
import DrogonR.WebSocket.Capacity
import DrogonR.WebSocket.Rooms
import DrogonR.WebSocket.Ownership
import DrogonR.WebSocket.Connection
import DrogonR.WebSocket.EventOrder
import DrogonR.Theory.Tables
import DrogonR.App.Registration
import DrogonR.Theory.Doorbell
import DrogonR.Bridge.Wakeup
import DrogonR.Bridge.Lifecycle
import DrogonR.WebSocket.Client
import DrogonR.WebSocket.ClientLife
import DrogonR.WebSocket.ClientHooks
import DrogonR.WebSocket.ClientClose
import DrogonR.WebSocket.Handlers
import DrogonR.WebSocket.Frames
import DrogonR.App.Supervisor
import DrogonR.App.Attempts
import DrogonR.Theory.Scan
import DrogonR.Theory.Regex
import DrogonR.App.Paths
import DrogonR.App.Plumber
import DrogonR.Theory.Router
import DrogonR.App.Routing
import DrogonR.Theory.Path
import DrogonR.Http.Static
import DrogonR.Theory.EventStream
import DrogonR.Stream.Sse
import DrogonR.Theory.Json
import DrogonR.Http.JsonWriter
import DrogonR.Http.JsonFallback
import DrogonR.Theory.Budget
import DrogonR.Http.RateLimit
import DrogonR.R.Args
import DrogonR.Theory.Intern
import DrogonR.App.RateLimits
import DrogonR.App.NumericLimits
import DrogonR.Http.Request
import DrogonR.Http.Helpers
import DrogonR.Http.Mime
import DrogonR.WebSocket.Broadcast
import DrogonR.WebSocket.RoomTable
import DrogonR.WebSocket.ClientReason
import DrogonR.App.PlumberArgs
import DrogonR.WebSocket.Url
