import QuicNfs.Server.Effect
import QuicNfs.Server.Ownership
import QuicNfs.Server.Authorisation
import QuicNfs.Kernel.Descent
import QuicNfs.Server.ObjectAccess
import QuicNfs.Server.HandleSoundness
import QuicNfs.Kernel.Below
import QuicNfs.Server.Confinement
import QuicNfs.Lib.BigEndian
import QuicNfs.Transport.RecordMarking
import QuicNfs.Transport.RecordTransfer
import QuicNfs.Transport.Lossless
import QuicNfs.Transport.RoundTrip
import QuicNfs.Transport.Failures
import QuicNfs.Transport.QuicReceiving
import QuicNfs.Transport.QuicServer
import QuicNfs.Transport.QuicAssembly
import QuicNfs.Transport.QuicClient
import QuicNfs.Transport.CallInvariant
import QuicNfs.Transport.CallMatching
import QuicNfs.Rpc.Gate
import QuicNfs.Rpc.Dispatch
import QuicNfs.Server.Statuses
import QuicNfs.Rpc.AbsentFields
import QuicNfs.Rpc.ReplyRoundTrip
import QuicNfs.Kernel.FileContent
import QuicNfs.Server.Runs
import QuicNfs.Server.Writing
import QuicNfs.Client.Handlers
import QuicNfs.Server.Service
import QuicNfs.Client.ByteArray
import QuicNfs.Client.OffsetWrap
import QuicNfs.Lib.Paging
import QuicNfs.Server.Listing
import QuicNfs.Client.Listing
import QuicNfs.Transport.EmptyFragments
import QuicNfs.Transport.TcpClient
import QuicNfs.Transport.TcpMatching
import QuicNfs.Server.Issuing
import QuicNfs.Server.LiveHandles
import QuicNfs.Server.StaleHandles
import QuicNfs.Transport.QuicReads
import QuicNfs.Transport.Packetisation
import QuicNfs.Transport.ConnectionReuse
import QuicNfs.Transport.StreamAllocation
import QuicNfs.Transport.CallFailures
import QuicNfs.Lib.WireFormat
import QuicNfs.Rpc.Credentials
import QuicNfs.Kernel.NewFile
import QuicNfs.Lib.Interleaving
import QuicNfs.Server.Exclusive
import QuicNfs.Server.Refusals
import QuicNfs.Server.SessionVisibility
import QuicNfs.Server.ExistenceLeak
import QuicNfs.Lib.Runs
import QuicNfs.Transport.ServerThreads
import QuicNfs.Rpc.StubSafety
import QuicNfs.Lib.LineReader
import QuicNfs.Server.Exports
import QuicNfs.Server.Outcomes
import QuicNfs.Server.LookupCache
import QuicNfs.Server.Frame
import QuicNfs.Server.StableHandles
import QuicNfs.Server.WithoutRenames
import QuicNfs.Kernel.Settings
import QuicNfs.Server.Settings
import QuicNfs.Server.Atomicity
import QuicNfs.Server.SetAttributes
import QuicNfs.Server.AskedAttributes
import QuicNfs.Server.TimesRoundTrip
import QuicNfs.Server.PermissionBits
import QuicNfs.Client.Repl
import QuicNfs.Server.PageSizes
import QuicNfs.Client.ReplListing
import QuicNfs.Client.SameResolution
import QuicNfs.Client.BrokenLinks
import QuicNfs.Kernel.PathResolution
import QuicNfs.Client.LinkResolution
import QuicNfs.Client.ChangeDirectory
import QuicNfs.Server.SymlinkRoundTrip
import QuicNfs.Client.Utimens
import QuicNfs.Client.Honesty
import QuicNfs.Client.Appends
import QuicNfs.Client.Coherence
import QuicNfs.Server.CacheUniqueness
