import WrapperPaas.Lib.Machine
import WrapperPaas.Lib.Fields
import WrapperPaas.Lib.Bytes
import WrapperPaas.Lib.Link
import WrapperPaas.Lib.Chunked
import WrapperPaas.Lib.Base64
import WrapperPaas.Lib.Json
import WrapperPaas.Lib.JsonReader
import WrapperPaas.Lib.HttpMessage
import WrapperPaas.Lib.JsonText
import WrapperPaas.Lib.JsonValue
import WrapperPaas.Lib.Utf8
import WrapperPaas.Lib.BufReader
import WrapperPaas.Lib.Refcount
import WrapperPaas.Lib.Threads
import WrapperPaas.Lib.Program
import WrapperPaas.Lib.Monitor
import WrapperPaas.Account.State
import WrapperPaas.Account.Threads
import WrapperPaas.Account.Equiv.Step
import WrapperPaas.Account.Equiv.Sole
import WrapperPaas.Account.Equiv.Isolation
import WrapperPaas.Account.Equiv.SingleFlow
import WrapperPaas.Account.Equiv.Pointers
import WrapperPaas.Account.Equiv.Wait
import WrapperPaas.Account.Equiv.LogoutWait
import WrapperPaas.Account.Equiv.Codes
import WrapperPaas.Account.Equiv.Snapshot
import WrapperPaas.Account.Equiv.Secrets
import WrapperPaas.Protocol.Frames
import WrapperPaas.Protocol.Equiv.Frames
import WrapperPaas.Protocol.Batch
import WrapperPaas.Protocol.Equiv.Batch
import WrapperPaas.Protocol.Equiv.Bounds
import WrapperPaas.Protocol.Equiv.Grammar
import WrapperPaas.Daemon.Ipc
import WrapperPaas.Daemon.Equiv.Ipc
import WrapperPaas.Daemon.Equiv.Parse
import WrapperPaas.Protocol.Routes
import WrapperPaas.Protocol.Equiv.Forward
import WrapperPaas.Protocol.Equiv.Fidelity
import WrapperPaas.Protocol.Session
import WrapperPaas.Protocol.Equiv.Session
import WrapperPaas.Protocol.Pipe
import WrapperPaas.Protocol.Equiv.Pipe
import WrapperPaas.Protocol.Equiv.Hangup
import WrapperPaas.Worker.State
import WrapperPaas.Worker.Threads
import WrapperPaas.Worker.Equiv.Transfer
import WrapperPaas.Worker.Equiv.View
import WrapperPaas.Worker.Equiv.Synchrony
import WrapperPaas.Worker.Equiv.Books
import WrapperPaas.Worker.Equiv.Admission
import WrapperPaas.Worker.Equiv.Tracking
import WrapperPaas.Worker.Equiv.Places
import WrapperPaas.Worker.Equiv.Coherence
import WrapperPaas.Worker.Equiv.Startup
import WrapperPaas.Worker.Equiv.Targets
import WrapperPaas.Worker.Equiv.Flow
import WrapperPaas.Worker.Equiv.Calls
import WrapperPaas.Worker.Equiv.Traffic
import WrapperPaas.Worker.Equiv.ControlFlow
import WrapperPaas.Worker.Equiv.Linear
import WrapperPaas.Worker.Equiv.Progress
import WrapperPaas.Worker.Equiv.Response
import WrapperPaas.Worker.Equiv.Deadline
import WrapperPaas.Daemon.Report
import WrapperPaas.Neon.Backup
import WrapperPaas.Neon.Equiv.Backup
import WrapperPaas.Neon.Store
import WrapperPaas.Neon.Equiv.Store
import WrapperPaas.Playback.Base64
import WrapperPaas.Playback.Equiv.Base64
import WrapperPaas.Runtime.Symbols
import WrapperPaas.Runtime.Loader
import WrapperPaas.Runtime.Equiv.Loader
import WrapperPaas.Runtime.DeviceInfo
import WrapperPaas.Runtime.Equiv.DeviceInfo
import WrapperPaas.Runtime.Init
import WrapperPaas.Runtime.Equiv.Init
import WrapperPaas.Playback.Fetch
import WrapperPaas.Playback.Equiv.Fetch
import WrapperPaas.Tokens.Jwt
import WrapperPaas.Tokens.Equiv.Jwt
import WrapperPaas.Tokens.Equiv.Accumulator
import WrapperPaas.Tokens.Response
import WrapperPaas.Tokens.Equiv.Response
import WrapperPaas.Tokens.Equiv.Depth
import WrapperPaas.Tokens.Harvest
import WrapperPaas.Tokens.Equiv.MusicToken
import WrapperPaas.Tokens.Equiv.Harvest
import WrapperPaas.Tokens.Equiv.Dsid
import WrapperPaas.Decrypt.KdCache
import WrapperPaas.Decrypt.Equiv.KdCache
import WrapperPaas.Decrypt.Equiv.KdOrder
import WrapperPaas.Decrypt.Batch
import WrapperPaas.Decrypt.Equiv.Batch
import WrapperPaas.Decrypt.Pool
import WrapperPaas.Decrypt.Equiv.Pool
import WrapperPaas.Decrypt.Equiv.Barrier
import WrapperPaas.Decrypt.Samples
import WrapperPaas.Decrypt.Equiv.Samples
import WrapperPaas.Http.Query
import WrapperPaas.Http.Equiv.Query
import WrapperPaas.Http.Connection
import WrapperPaas.Http.Equiv.Connection
import WrapperPaas.Daemon.Handlers
import WrapperPaas.Daemon.Equiv.Handlers
import WrapperPaas.Http.Router
import WrapperPaas.Http.Equiv.Router
import WrapperPaas.Http.Equiv.Commands
import WrapperPaas.Http.Pool
import WrapperPaas.Http.Equiv.Pool
