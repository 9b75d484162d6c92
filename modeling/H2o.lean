import H2o.Hpack.Proofs.Ring
import H2o.Hpack.Proofs.RoundTrip
import H2o.Hpack.Proofs.Verdict
import H2o.Hpack.Framing
import H2o.Qpack.Proofs.Sync
import H2o.Qpack.Proofs.Window
import H2o.Qpack.Proofs.Section
import H2o.Qpack.Proofs.Ledger
import H2o.Qpack.Proofs.Unblock
import H2o.Qpack.Proofs.Declared
import H2o.Http2Client.Proofs.Truncation
import H2o.Http2Client.Proofs.HeaderBlocks
import H2o.Http2Client.Proofs.SendQueue
import H2o.Http2Client.Proofs.Credit
import H2o.Http2Client.Proofs.RecvWindow
import H2o.Http2Server.Proofs.Input
import H2o.Http2Conn.Proofs.Packets
import H2o.Http2Conn.Proofs.Settings
import H2o.Http3Server.Proofs.Flows
import H2o.Http3Server.Proofs.SendStream
import H2o.Quic.Proofs.Dispatch
import H2o.Quic.Proofs.Forward
import H2o.Scheduler.Proofs.Calendar
import H2o.Cache.Proofs.Runs
import H2o.Url.Proofs.Contained
import H2o.HeadersUtil
import H2o.FastCgi.Params
import H2o.SocketPool.Proofs.Accounting
import H2o.Connect.Proofs.Eyeballs
import H2o.Connect.Capsules
import H2o.Multithread.Proofs.Delivery
import H2o.Buffer.Proofs.Queue
import H2o.Url.SunPath
import H2o.Connect.Acl
import H2o.ProtocolSelector
