/-
The state of an HTTP/2 client connection (`lib/common/http2client.c`).

A connection is `Conn`, a stream on it `Stream`. The two linked lists of
streams are lists of stream ids, and a timer is whether it is linked. `trace`
is what has happened, newest first: the frames received and sent, and the
calls made into the application. Nothing reads it.

The application obeys the contract of the client. It calls `write_req` only
after `proceed_req` was called (`mayWrite`), and does not use a client that has
reported an error (`told`).
-/
import H2o.Hpack.Encode
import H2o.Hpack.Response
import H2o.StringUtil

namespace H2o.Http2Client

open Http2 Hpack

-- ==== trace

/-- The errors reported to the application (`h2o_httpclient_error_*`).
`isEos` is the end of a response. -/
inductive Errstr where
  | isEos
  | io
  | refusedStream
  | protocolViolation
  | flowControl
  | firstByteTimeout
  | ioTimeout
deriving DecidableEq

/-- What has happened. -/
inductive Label where
  | recv (f : Frame)
  | sent (f : OutFrame)
  /-- `register_stream`; the method of the request is HEAD. -/
  | opened (streamId : Nat) (isHead : Bool)
  /-- `close_stream`. -/
  | closed (streamId : Nat)
  /-- The application has given up the stream. -/
  | cancelled (streamId : Nat)
  /-- `on_head` or `on_trailers` is given a block, to be read with a table. -/
  | block (streamId : Nat) (table : HeaderTable) (src : Bytes)
  | informational (streamId : Nat) (status : Nat) (headers : List Field)
  /-- The callback `on_head`. -/
  | onHead (streamId : Nat) (err : Option Errstr) (status : Nat)
    (headers : List Field)
  /-- The callback `on_body`, with what was added to the buffer. -/
  | onBody (streamId : Nat) (err : Option Errstr) (data : Bytes)
    (trailers : List Field)
  /-- The callback `proceed_req`. -/
  | proceed (streamId : Nat) (err : Option Errstr)

-- ==== streams

inductive StreamState where
  | head
  | body
  | closed
deriving DecidableEq

/-- `struct st_h2o_http2client_stream_t`. -/
structure Stream where
  streamId : Nat
  req : StreamState
  res : StreamState
  outWindow : Int
  outBuf : Option Bytes
  /-- `proceed_req` is not `NULL`. -/
  proceedReq : Bool
  inWindow : Int
  status : Nat
  headers : List Field
  /-- The size of `input.body`. -/
  bodySize : Nat
  /-- `remaining_content_length`; `none` is `SIZE_MAX`. -/
  remaining : Option Nat
  messageBodyForbidden : Bool
  sendOwnExpect : Bool
  /-- `informational_cb` is not `NULL`. -/
  informationalCb : Bool
  /-- `_timeout` is linked. -/
  timeout : Bool
  mayWrite : Bool
  told : Bool

/-- The request body has octets that are not sent. -/
def Stream.hasBytes (s : Stream) : Bool :=
  match s.outBuf with
  | some (_ :: _) => true
  | _ => false

-- ==== connections

inductive ConnState where
  | open
  | halfClosed
  | isClosing
deriving DecidableEq

/-- `conn->input.read_frame`. -/
inductive ReadFrame where
  | expectSettings
  | expectDefault
  | expectContinuationOfHeaders (headersHadEndStream : Bool)
deriving DecidableEq

/-- The write callback of the socket. -/
inductive SocketWrite where
  | idle
  /-- `h2o_socket_write`, with `on_write_complete`. -/
  | writing
  /-- `h2o_socket_notify_write`, with `on_notify_write`. -/
  | notify
deriving DecidableEq

/-- The fields of `h2o_httpclient_ctx_t` that are read. -/
structure Context where
  maxBufferSize : Nat
  maxConcurrentStreams : UInt32

/-- `get_max_buffer_size`. -/
def Context.getMaxBufferSize (ctx : Context) : Nat :=
  min ctx.maxBufferSize int32Max

/-- `struct st_h2o_http2client_conn_t`, and its socket. -/
structure Conn where
  ctx : Context
  /-- The connection is not freed. -/
  alive : Bool
  state : ConnState
  /-- `super.link` is linked: new streams may be put on the connection. -/
  linked : Bool
  numStreams : Nat
  streams : List Stream
  peerSettings : Settings
  maxOpenStreamId : Nat
  ioTimeout : Bool
  keepaliveTimeout : Bool
  sock : SocketWrite
  outTable : HeaderTable
  outWindow : Int
  outBuf : List OutFrame
  /-- `output.buf_in_flight` is not `NULL`. -/
  inFlight : Bool
  deferTimeout : Bool
  sending : List Nat
  sent : List Nat
  inTable : HeaderTable
  inWindow : Int
  readFrame : ReadFrame
  headersUnparsed : Bytes
  trace : List Label

/-- An assertion, or the use of a stream that is freed. -/
inductive Fault where
  /-- `enqueue_window_update`. -/
  | desiredTooLarge
  /-- `stream_send_error`. -/
  | streamIdZero
  | sendErrorWhileClosing
  /-- `unregister_stream`, or a stream that is used after it. -/
  | notRegistered
  /-- `close_response`. -/
  | responseClosed
  /-- `on_trailers`. -/
  | notInBody
  /-- `do_update_window`. -/
  | bodyTooLarge
  /-- `do_write_req`. -/
  | noProceedReq
  /-- `do_write_req`, `h2o_linklist_insert`. -/
  | streamLinked
  /-- `h2o_timer_link`. -/
  | timerLinked
  /-- `do_emit_writereq`. -/
  | writeInFlight
  /-- `h2o_socket_write`, `h2o_socket_notify_write`. -/
  | socketBusy
  /-- `on_write_complete`. -/
  | noWriteInFlight
  | deferLinked
  /-- `close_connection_now`. -/
  | streamsLinked
  /-- `on_head` fails without a stream. -/
  | nullStream
deriving DecidableEq

namespace Conn

/-- `get_stream`. -/
def getStream (c : Conn) (streamId : Nat) : Option Stream :=
  c.streams.find? fun s => s.streamId == streamId

/-- An assignment to fields of a stream. -/
def setStream (c : Conn) (streamId : Nat) (f : Stream → Stream) : Conn :=
  { c with
    streams := c.streams.map fun s => if s.streamId = streamId then f s
      else s }

def log (c : Conn) (l : Label) : Conn := { c with trace := l :: c.trace }

/-- A frame is appended to `output.buf`. -/
def emit (c : Conn) (f : OutFrame) : Conn :=
  { c with outBuf := c.outBuf ++ [f], trace := .sent f :: c.trace }

/-- `h2o_linklist_is_linked(&stream->output.sending_link)`. -/
def isSendingLinked (c : Conn) (streamId : Nat) : Bool :=
  decide (streamId ∈ c.sending ∨ streamId ∈ c.sent)

/-- `h2o_linklist_insert` into `sending_streams`. -/
def insertSending (c : Conn) (streamId : Nat) : Except Fault Conn :=
  if c.isSendingLinked streamId then .error .streamLinked
  else .ok { c with sending := c.sending ++ [streamId] }

/-- `h2o_httpclient__h2_get_max_concurrent_streams`. -/
def getMaxConcurrentStreams (c : Conn) : UInt32 :=
  if c.peerSettings.maxConcurrentStreams < c.ctx.maxConcurrentStreams then
    c.peerSettings.maxConcurrentStreams
  else c.ctx.maxConcurrentStreams

theorem getStream_some {c : Conn} {streamId : Nat} {s : Stream}
    (h : c.getStream streamId = some s) :
    s ∈ c.streams ∧ s.streamId = streamId :=
  ⟨List.mem_of_find?_eq_some h, by simpa using List.find?_some h⟩

theorem mem_setStream {c : Conn} {streamId : Nat} {f : Stream → Stream}
    {s' : Stream} :
    s' ∈ (c.setStream streamId f).streams ↔ ∃ s ∈ c.streams,
      (s.streamId = streamId ∧ s' = f s) ∨
        (s.streamId ≠ streamId ∧ s' = s) := by
  simp only [setStream, List.mem_map]
  refine exists_congr fun s => and_congr_right fun _ => ?_
  by_cases hid : s.streamId = streamId
  · simp [hid, eq_comm]
  · simp [hid, eq_comm]

end Conn

/-- `request_write`. -/
def requestWrite (c : Conn) : Conn :=
  if c.state = .isClosing then c
  else if c.sock = .idle ∧ c.deferTimeout = false then
    { c with deferTimeout := true }
  else c

theorem requestWrite_eq (c : Conn) :
    requestWrite c = { c with
      deferTimeout := (requestWrite c).deferTimeout } := by
  unfold requestWrite
  split
  · rfl
  · split
    · rfl
    · rfl

@[simp] theorem requestWrite_state (c : Conn) :
    (requestWrite c).state = c.state := by
  rw [requestWrite_eq]

@[simp] theorem requestWrite_streams (c : Conn) :
    (requestWrite c).streams = c.streams := by
  rw [requestWrite_eq]

/-- `create_connection` and `send_client_preface`. -/
def createConnection (ctx : Context) : Conn :=
  requestWrite <| Conn.emit (f := .preface ctx.getMaxBufferSize)
    { ctx
      alive := true
      state := .open
      linked := true
      numStreams := 0
      streams := []
      peerSettings := .default
      maxOpenStreamId := 0
      ioTimeout := false
      keepaliveTimeout := false
      sock := .idle
      outTable := .create 4096 0
      outWindow := Settings.default.initialWindowSize.toNat
      outBuf := []
      inFlight := false
      deferTimeout := false
      sending := []
      sent := []
      inTable := .create 4096 4096
      inWindow := Settings.default.initialWindowSize.toNat
      readFrame := .expectSettings
      headersUnparsed := []
      trace := [] }

end H2o.Http2Client
