import QuietStorage.Lib.Run
import QuietStorage.Lib.Cursor
import QuietStorage.Lib.JsMap
import QuietStorage.Lib.JsNumber
import QuietStorage.Lib.Worklist
import QuietStorage.Types
import QuietStorage.Storage.Table
import QuietStorage.Storage.DuplicateError
import QuietStorage.Storage.AddLogEntry
import QuietStorage.Storage.Migration
import QuietStorage.Storage.Allocation
import QuietStorage.Storage.Queries
import QuietStorage.Storage.CursorQueries
import QuietStorage.Sync.Pull
import QuietStorage.Sync.PullSpec
import QuietStorage.Sync.CursorPull
import QuietStorage.Sync.CursorForward
import QuietStorage.Sync.CursorBackward
import QuietStorage.Sync.Reader
import QuietStorage.Sync.CatchUp
import QuietStorage.Storage.Answers
import QuietStorage.Sync.Handler
import QuietStorage.Sync.Agreement
import QuietStorage.Sync.Resolve
import QuietStorage.Sync.Highest
import QuietStorage.Communities.Manager
import QuietStorage.Communities.Frame
import QuietStorage.Communities.Wiring
import QuietStorage.Communities.OneChain
import QuietStorage.Communities.Sessions
import QuietStorage.Communities.Identity
import QuietStorage.Communities.Persistence
import QuietStorage.Communities.Expiry
import QuietStorage.Communities.WriteOrder
import QuietStorage.Communities.Rooms
import QuietStorage.Communities.Takeover
import QuietStorage.Lib.Async
import QuietStorage.Encryption.Secrets
import QuietStorage.Lib.Interpret
import QuietStorage.Lib.JsValue
import QuietStorage.Lib.Utf8
import QuietStorage.Encryption.EnvSecrets
import QuietStorage.Encryption.EnvCache
import QuietStorage.Encryption.KeyManager
import QuietStorage.Encryption.KeyDiscipline
import QuietStorage.Encryption.OneKey
import QuietStorage.Communities.ServerKeys
import QuietStorage.Encryption.Alone
import QuietStorage.Encryption.EnvCalls
import QuietStorage.Communities.Create
import QuietStorage.Websocket.Gateway
import QuietStorage.Websocket.RateLimit
import QuietStorage.Websocket.Admission
import QuietStorage.Websocket.Handlers
import QuietStorage.Websocket.Escapes
import QuietStorage.Websocket.Captcha
import QuietStorage.Lib.Timeline
import QuietStorage.Lib.SingleUse
import QuietStorage.Lib.SlidingWindow
import QuietStorage.Lib.Radix
import QuietStorage.Lib.Packing
import QuietStorage.Qps.Service
import QuietStorage.Qps.Delivery
import QuietStorage.Qps.Authorized
import QuietStorage.Qps.SignedIn
import QuietStorage.Qps.BatchPush
import QuietStorage.Logger.TruncateUtf8
import QuietStorage.Lib.Traversal
import QuietStorage.Lib.ObjectGraph
import QuietStorage.Lib.Secrets
import QuietStorage.Logger.Sanitizer
import QuietStorage.Logger.Turns
import QuietStorage.Logger.Outlines
import QuietStorage.Logger.Course
import QuietStorage.Logger.Rendering
import QuietStorage.Logger.Throws
import QuietStorage.Logger.Circular
import QuietStorage.Logger.Returns
import QuietStorage.Logger.Outputs
import QuietStorage.Logger.Inside
import QuietStorage.Logger.Redaction
import QuietStorage.Logger.Bounds
import QuietStorage.Nse.Auth
import QuietStorage.Nse.Base58
import QuietStorage.Nse.Tokens
import QuietStorage.Nse.Protocol
import QuietStorage.Nse.Refusals
import QuietStorage.Nse.Polling
import QuietStorage.Qps.SigningKey
import QuietStorage.Qps.OneDid
import QuietStorage.Lib.Quoted
import QuietStorage.Websocket.SecurityLog
import QuietStorage.Sync.Live
import QuietStorage.Communities.LetIn
import QuietStorage.Communities.Hears
import QuietStorage.Lib.Linear
import QuietStorage.Lib.Transactions
import QuietStorage.Storage.PostgresRepo
import QuietStorage.Communities.Storage
import QuietStorage.Websocket.AuthSync
