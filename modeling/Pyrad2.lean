import Pyrad2.Acceptance
import Pyrad2.AcctDelay
import Pyrad2.Agreement
import Pyrad2.AscendFilters
import Pyrad2.Async.Accounting
import Pyrad2.Async.Client
import Pyrad2.Async.Conversations
import Pyrad2.Async.EventLoop
import Pyrad2.Async.FailedSends
import Pyrad2.Async.Forgeries
import Pyrad2.Async.Protocol
import Pyrad2.Async.Steps
import Pyrad2.Async.Timer
import Pyrad2.Chap
import Pyrad2.Client
import Pyrad2.Codecs
import Pyrad2.Correlation
import Pyrad2.Decision
import Pyrad2.Dedup
import Pyrad2.DedupCache
import Pyrad2.DedupEviction
import Pyrad2.DedupOnce
import Pyrad2.DedupRuns
import Pyrad2.DedupThreads
import Pyrad2.Dictionary.Declarations
import Pyrad2.Dictionary.Errors
import Pyrad2.Dictionary.IncludeLines
import Pyrad2.Dictionary.Includes
import Pyrad2.Dictionary.Keys
import Pyrad2.Dictionary.Parents
import Pyrad2.Dictionary.Parser
import Pyrad2.Dictionary.Reload
import Pyrad2.Dictionary.Values
import Pyrad2.Disclosure
import Pyrad2.Eap.Authenticator
import Pyrad2.Eap.Base
import Pyrad2.Eap.Gtc
import Pyrad2.Eap.Md5
import Pyrad2.Eap.Methods
import Pyrad2.Eap.MutualAuth
import Pyrad2.Eap.Respond
import Pyrad2.Forgeries
import Pyrad2.Foundations.Assignments
import Pyrad2.Foundations.Footprint
import Pyrad2.Foundations.Framing
import Pyrad2.Foundations.InStep
import Pyrad2.Foundations.Interleave
import Pyrad2.Foundations.Lockstep
import Pyrad2.Foundations.Noise
import Pyrad2.Foundations.Sized
import Pyrad2.Foundations.StateExcept
import Pyrad2.Foundations.Words
import Pyrad2.Handler
import Pyrad2.Junk
import Pyrad2.Md4
import Pyrad2.MschapRequest
import Pyrad2.Packet.Alike
import Pyrad2.Packet.Arrival
import Pyrad2.Packet.Authenticator
import Pyrad2.Packet.Avps
import Pyrad2.Packet.Basic
import Pyrad2.Packet.Bound
import Pyrad2.Packet.ByName
import Pyrad2.Packet.Cells
import Pyrad2.Packet.Containers
import Pyrad2.Packet.Counter
import Pyrad2.Packet.DecodeKeys
import Pyrad2.Packet.DecodeShape
import Pyrad2.Packet.Deferred
import Pyrad2.Packet.Detached
import Pyrad2.Packet.Emitted
import Pyrad2.Packet.Encode
import Pyrad2.Packet.EncodeSize
import Pyrad2.Packet.Frame
import Pyrad2.Packet.Idempotent
import Pyrad2.Packet.Identifier
import Pyrad2.Packet.MacCoverage
import Pyrad2.Packet.MacValue
import Pyrad2.Packet.MessageAuthenticator
import Pyrad2.Packet.NamedValues
import Pyrad2.Packet.Octets
import Pyrad2.Packet.Output
import Pyrad2.Packet.Password
import Pyrad2.Packet.Pending
import Pyrad2.Packet.Places
import Pyrad2.Packet.PlainAccess
import Pyrad2.Packet.PlainGroups
import Pyrad2.Packet.PlainWire
import Pyrad2.Packet.Raises
import Pyrad2.Packet.ReadBack
import Pyrad2.Packet.Received
import Pyrad2.Packet.Refresh
import Pyrad2.Packet.Rejected
import Pyrad2.Packet.Reorder
import Pyrad2.Packet.Repliable
import Pyrad2.Packet.Reply
import Pyrad2.Packet.ReplyAcceptance
import Pyrad2.Packet.ReplySafety
import Pyrad2.Packet.RequestAcceptance
import Pyrad2.Packet.Requests
import Pyrad2.Packet.Restoring
import Pyrad2.Packet.RoundTrip
import Pyrad2.Packet.Salt
import Pyrad2.Packet.Sending
import Pyrad2.Packet.Serializable
import Pyrad2.Packet.Serialize
import Pyrad2.Packet.Shapes
import Pyrad2.Packet.Tagged
import Pyrad2.Packet.TlvTrees
import Pyrad2.Packet.VendorFormats
import Pyrad2.Packet.VerifyReply
import Pyrad2.Packet.Walks
import Pyrad2.Packet.Wrappers
import Pyrad2.Packet.Written
import Pyrad2.Packet.Zeroing
import Pyrad2.Proxy
import Pyrad2.Radsec.Certificates
import Pyrad2.Radsec.Client
import Pyrad2.Radsec.Connection
import Pyrad2.Radsec.Exchanges
import Pyrad2.Radsec.Negotiation
import Pyrad2.Radsec.Pipeline
import Pyrad2.Radsec.Server
import Pyrad2.Radsec.Stream
import Pyrad2.Radsec.Tokens
import Pyrad2.Server
import Pyrad2.ServerAsync
import Pyrad2.Survival
import Pyrad2.Transmissions
import Pyrad2.Verdicts
