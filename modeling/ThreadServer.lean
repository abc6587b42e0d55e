import ThreadServer.Lib.Bytes
import ThreadServer.Lib.Expression
import ThreadServer.Lib.FormEncoding
import ThreadServer.Lib.History
import ThreadServer.Lib.JsonGrammar
import ThreadServer.Lib.JsonReader
import ThreadServer.Lib.Ledger
import ThreadServer.Lib.LexicalCast
import ThreadServer.Lib.Lines
import ThreadServer.Lib.Paths
import ThreadServer.Lib.Posix
import ThreadServer.Lib.PrefixMask
import ThreadServer.Lib.Printf
import ThreadServer.Lib.Recursion
import ThreadServer.Lib.References
import ThreadServer.Lib.Registry
import ThreadServer.Lib.StdMap
import ThreadServer.Lib.Template
import ThreadServer.Lib.ThreadLocal
import ThreadServer.Lib.Transition
import ThreadServer.AcceptLoop
import ThreadServer.Attendance
import ThreadServer.Background
import ThreadServer.Configuration
import ThreadServer.ConfiguredSite
import ThreadServer.Detach
import ThreadServer.Dispatch
import ThreadServer.Drain
import ThreadServer.Effort
import ThreadServer.Error
import ThreadServer.ErrorIdentity
import ThreadServer.ErrorText
import ThreadServer.Forbidden
import ThreadServer.FormExchange
import ThreadServer.Guard
import ThreadServer.HandlerLibraries
import ThreadServer.HandlerModule
import ThreadServer.HandlerThread
import ThreadServer.HttpMessage
import ThreadServer.HttpMethods
import ThreadServer.HttpWorker
import ThreadServer.Indexed
import ThreadServer.IoService
import ThreadServer.Job
import ThreadServer.Json
import ThreadServer.JsonAccessors
import ThreadServer.JsonExchange
import ThreadServer.JsonLifetime
import ThreadServer.JsonPool
import ThreadServer.JsonRoundTrip
import ThreadServer.JsonScript
import ThreadServer.Lifecycle
import ThreadServer.Listener
import ThreadServer.MethodRegistry
import ThreadServer.Network
import ThreadServer.ParameterStore
import ThreadServer.Parameters
import ThreadServer.PoolExchange
import ThreadServer.Registration
import ThreadServer.ReplyHeads
import ThreadServer.ReplyReading
import ThreadServer.Serving
import ThreadServer.Shutdown
import ThreadServer.Signals
import ThreadServer.Site
import ThreadServer.Startup
import ThreadServer.Supervision
import ThreadServer.ThreadWork
import ThreadServer.ThrownObjects
import ThreadServer.UploadExchange
import ThreadServer.WorkerPool
import ThreadServer.WorkerThread
