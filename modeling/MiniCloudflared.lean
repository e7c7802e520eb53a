import MiniCloudflared.Library.FirstMatch
import MiniCloudflared.Library.MultiMap
import MiniCloudflared.Library.Transition
import MiniCloudflared.Library.Runs
import MiniCloudflared.Library.Traced
import MiniCloudflared.Library.Bytes
import MiniCloudflared.Library.Outcome
import MiniCloudflared.Library.Http1
import MiniCloudflared.Library.Utf8
import MiniCloudflared.Library.LittleEndian
import MiniCloudflared.Library.Capnp
import MiniCloudflared.Library.CapnpPointers
import MiniCloudflared.Library.CapnpReader
import MiniCloudflared.Library.CapnpRelocation
import MiniCloudflared.Library.CapnpMessage
import MiniCloudflared.Library.CopyLoop
import MiniCloudflared.Library.UriHost
import MiniCloudflared.Library.Base64
import MiniCloudflared.HttpTypes
import MiniCloudflared.Config
import MiniCloudflared.ThirdParty
import MiniCloudflared.HostMatching
import MiniCloudflared.TokenDecoding
import MiniCloudflared.SecretEncodings
import MiniCloudflared.Ingress
import MiniCloudflared.RequestBody
import MiniCloudflared.Http2
import MiniCloudflared.H2Stream
import MiniCloudflared.EndOfStream
import MiniCloudflared.Origin
import MiniCloudflared.ProxyStream
import MiniCloudflared.ResponseHeaders
import MiniCloudflared.ForwardedHead
import MiniCloudflared.Exchange
import MiniCloudflared.RequestFields
import MiniCloudflared.RequestFraming
import MiniCloudflared.ResponseFraming
import MiniCloudflared.StandIns
import MiniCloudflared.InterimResponses
import MiniCloudflared.Routing
import MiniCloudflared.Destinations
import MiniCloudflared.BodyDrain
import MiniCloudflared.LocalProxy
import MiniCloudflared.Connection
import MiniCloudflared.SentFrames
import MiniCloudflared.StreamOwners
import MiniCloudflared.Deadlock
import MiniCloudflared.HotReload
import MiniCloudflared.TunnelSecret
import MiniCloudflared.Registered
import MiniCloudflared.Reconnect
import MiniCloudflared.CapnpRpc
import MiniCloudflared.Allocations
import MiniCloudflared.SchemaReaders
import MiniCloudflared.RegisterCall
import MiniCloudflared.FramedMessage
import MiniCloudflared.ConnectionResponse
import MiniCloudflared.TextPointers
import MiniCloudflared.HostileResponse
import MiniCloudflared.ResponseDecoding
import MiniCloudflared.Answers
import MiniCloudflared.OwnRequests
import MiniCloudflared.Serving
import MiniCloudflared.Startup
import MiniCloudflared.Rotation
import MiniCloudflared.TableLock
import MiniCloudflared.H2Pipe
import MiniCloudflared.DeadRules
import MiniCloudflared.Library.Performs
import MiniCloudflared.MessageLayout
import MiniCloudflared.WholeTunnel
import MiniCloudflared.LoopRefinement
import MiniCloudflared.LockRelease
import MiniCloudflared.Handlers
import MiniCloudflared.Registration
