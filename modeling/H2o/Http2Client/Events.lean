/-
The events of an HTTP/2 client connection (`lib/common/http2client.c`): the
callbacks of its socket and timers, and the calls of the application.

A run is a list of events. An event that cannot happen, because the timer is
not linked or the contract of the client does not allow the call, changes
nothing. The frames of one read are events of their own, and `readDone` is what
`on_read` does after the last of them.
-/
import H2o.Http2Client.Frames
import H2o.Lib.Run

namespace H2o.Http2Client

open Http2 Hpack

-- ==== writing

/-- `calc_max_payload_size`. -/
def calcMaxPayloadSize (c : Conn) (s : Stream) (room : Nat) : Nat :=
  if bufferWindow c room ≤ 0 then 0
  else if s.outWindow ≤ 0 then 0
  else
    min (min (bufferWindow c room).toNat s.outWindow.toNat)
      c.peerSettings.maxFrameSize.toNat

/-- A DATA frame with the first `n` octets of the buffer. -/
def emitData (c : Conn) (s : Stream) (buf : Bytes) (n : Nat)
    (endStream : Bool) : Conn :=
  { c.emit (.data s.streamId (buf.take n) endStream) with
    outWindow := c.outWindow - n }

/-- The stream after a DATA frame with `n` octets of the buffer. -/
def Stream.consume (s : Stream) (buf : Bytes) (n : Nat) : Stream :=
  { s with outBuf := some (buf.drop n), outWindow := s.outWindow - n }

/-- `end_stream` of `stream_emit_pending_data`. -/
def Stream.ends (s : Stream) (buf : Bytes) (n : Nat) : Bool :=
  !s.proceedReq && n == buf.length

/-- `stream_emit_pending_data` on a buffer: the connection and the stream. -/
def streamEmitPendingData (c : Conn) (s : Stream) (buf : Bytes) (room : Nat) :
    Conn × Stream :=
  let n := min (calcMaxPayloadSize c s room) buf.length
  if n = 0 ∧ s.ends buf n = false then (c, s)
  else (emitData c s buf n (s.ends buf n), s.consume buf n)

/-- A stream of the loop of `do_emit_writereq` after its data were sent. -/
def linkEmitted (c : Conn) (s : Stream) : Conn :=
  if s.hasBytes = false then { c with sent := c.sent ++ [s.streamId] }
  else if s.outWindow > 0 ∧ s.sendOwnExpect = false then
    -- re-insert to tail so that streams would be sent round-robin
    { c with sending := c.sending ++ [s.streamId] }
  -- flow-control-blocked: not linked until WINDOW_UPDATE is received
  else c

/-- The loop of `do_emit_writereq`. -/
def emitStream (room : Nat → Nat) (c : Conn) (streamId : Nat) :
    Except Fault Conn :=
  match c.getStream streamId with
  | none => .error .notRegistered
  | some s =>
    let (c, s) :=
      match s.outBuf with
      | none => (c, s)
      | some buf =>
        if s.sendOwnExpect then (c, s)
        else streamEmitPendingData c s buf (room streamId)
    .ok (linkEmitted (c.setStream streamId fun _ => s) s)

/-- `h2o_socket_write` of `output.buf`. -/
def writeOutput (c : Conn) : Except Fault Conn :=
  if c.outBuf = [] then .ok c
  else if c.sock ≠ .idle then .error .socketBusy
  else
    .ok { c with
      outBuf := []
      inFlight := true
      sock := .writing
      ioTimeout := true }

/-- `do_emit_writereq`. -/
def doEmitWritereq (c : Conn) (room : Nat → Nat) : Except Fault Conn :=
  if c.inFlight then .error .writeInFlight
  else do
    let c ← c.sending.foldlM (emitStream room) { c with sending := [] }
    writeOutput c

-- ==== application

/-- `do_cancel`. -/
def doCancel (c : Conn) (streamId : Nat) : Except Fault Conn :=
  giveUp c streamId .cancel

/-- `do_write_req`. -/
def doWriteReq (c : Conn) (streamId : Nat) (chunk : Bytes)
    (isEndStream : Bool) : Except Fault Conn :=
  match c.getStream streamId with
  | none => .error .notRegistered
  | some s =>
    if s.proceedReq = false then .error .noProceedReq
    else do
      let c := c.setStream streamId fun s =>
        { s with
          proceedReq := !isEndStream
          outBuf := some (s.outBuf.getD [] ++ chunk)
          mayWrite := false }
      let c ← c.insertSending streamId
      .ok (requestWrite c)

/-- What the application does when `proceed_req` is called. -/
inductive Reaction where
  | wait
  | writeReq (chunk : Bytes) (isEndStream : Bool)
  | cancel

/-- The contract of `write_req`: a chunk that is not the last has octets. -/
def chunkOk (chunk : Bytes) (isEndStream : Bool) : Bool :=
  isEndStream || !chunk.isEmpty

/-- `stream->output.proceed_req(&stream->super, NULL)`. -/
def proceedReq (c : Conn) (streamId : Nat) (reaction : Reaction) :
    Except Fault Conn :=
  let c := (c.setStream streamId fun s => { s with mayWrite := true }).log
    (.proceed streamId none)
  match reaction with
  | .wait => .ok c
  | .writeReq chunk isEndStream =>
    if chunkOk chunk isEndStream then doWriteReq c streamId chunk isEndStream
    else .ok c
  | .cancel => doCancel c streamId

/-- The call of `proceed_req`, if the request goes on. -/
def proceedReqOf (c : Conn) (s : Stream) (reaction : Reaction) :
    Except Fault Conn :=
  if s.proceedReq then proceedReq c s.streamId reaction else .ok c

/-- `h2o_timer_link(.., first_byte_timeout, &stream->super._timeout)`. -/
def linkFirstByteTimeout (c : Conn) (s : Stream) : Except Fault Conn :=
  if s.timeout then .error .timerLinked
  else .ok (c.setStream s.streamId fun s => { s with timeout := true })

/-- The request is sent, unless the application has written more of it. -/
def finishRequest (c : Conn) (streamId : Nat) : Except Fault Conn :=
  match c.getStream streamId with
  -- `stream_destroyed`
  | none => .ok c
  | some s =>
    if s.proceedReq = false ∧ c.isSendingLinked streamId = false then
      linkFirstByteTimeout (c.setStream streamId fun s =>
        { s with req := .closed }) s
    else .ok c

/-- The loop of `on_write_complete` over `sent_streams`. -/
def completeStream (reactions : Nat → Reaction) (c : Conn) (streamId : Nat) :
    Except Fault Conn :=
  let c := { c with sent := c.sent.filter (· != streamId) }
  match c.getStream streamId with
  | none => .error .notRegistered
  | some s =>
    if s.sendOwnExpect ∧ s.req = .body then linkFirstByteTimeout c s
    else do
      let c ← proceedReqOf c s (reactions streamId)
      finishRequest c streamId

/-- The end of `on_write_complete`. -/
def writeNext (c : Conn) (room : Nat → Nat) : Except Fault Conn :=
  if c.outBuf = [] ∧ c.sending = [] then
    if c.deferTimeout then .error .deferLinked
    else do
      let (c, _) ← closeConnectionIfNecessary c
      .ok c
  else
    let c := { c with deferTimeout := false }
    if c.state = .open then
      if c.sock ≠ .idle then .error .socketBusy
      else .ok { c with sock := .notify }
    else do
      let c ← doEmitWritereq c room
      let (c, _) ← closeConnectionIfNecessary c
      .ok c

/-- The streams are told of a failed write, unless they were told before. -/
def reportWriteError (c : Conn) : Except Fault Conn :=
  if c.state = .isClosing then .ok c else callStreamCallbacksWithError c .io

/-- `on_write_complete`. -/
def onWriteComplete (c : Conn) (err : Bool) (reactions : Nat → Reaction)
    (room : Nat → Nat) : Except Fault Conn :=
  if c.inFlight = false then .error .noWriteInFlight
  else
    let c := { c with sock := .idle, ioTimeout := false }
    if err then do
      let c ← reportWriteError c
      closeConnectionNow c
    else
      match closeConnectionIfNecessary c with
      | .error fault => .error fault
      | .ok (c, true) => .ok c
      | .ok (c, false) => do
          let c ← c.sent.foldlM (completeStream reactions) c
          writeNext { c with inFlight := false } room

/-- `on_notify_write`. -/
def onNotifyWrite (c : Conn) (err : Bool) (room : Nat → Nat) :
    Except Fault Conn :=
  let c := { c with sock := .idle }
  if err then do
    let c ← callStreamCallbacksWithError c .io
    closeConnectionNow c
  else do
    let c ← doEmitWritereq c room
    let (c, _) ← closeConnectionIfNecessary c
    .ok c

-- ==== new streams

/-- What the application passes to the client in `on_connect`. -/
structure NewRequest where
  /-- `on_connect` returns a callback. -/
  accepted : Bool
  request : Hpack.Request
  /-- `body`, whose base may be `NULL`. -/
  body : Option Bytes
  proceedReq : Bool
  /-- `props.send_own_expect`. -/
  sendOwnExpect : Bool
  informationalCb : Bool

/-- `setup_stream`. -/
def setupStream (ctx : Context) (streamId : Nat) (informationalCb : Bool) :
    Stream where
  streamId
  req := .head
  res := .head
  outWindow := 0
  outBuf := none
  proceedReq := false
  inWindow := ctx.getMaxBufferSize
  status := 0
  headers := []
  bodySize := 0
  remaining := none
  messageBodyForbidden := false
  sendOwnExpect := false
  informationalCb
  timeout := false
  mayWrite := false
  told := false

/-- The stream after `on_connect`, as `on_connection_ready` sets it up. -/
def NewRequest.setup (r : NewRequest) (c : Conn) (s : Stream) : Stream :=
  { s with
    proceedReq := r.proceedReq
    outWindow := c.peerSettings.initialWindowSize.toNat
    req := if r.proceedReq ∨ r.body.isSome then .body else .closed
    messageBodyForbidden := r.request.method == ascii "HEAD"
    sendOwnExpect := r.sendOwnExpect &&
      (r.proceedReq || !(r.body.getD []).isEmpty)
    outBuf :=
      if r.proceedReq ∨ r.body.isSome then some (r.body.getD []) else none }

/-- `on_connection_ready`. -/
def onConnectionReady (c : Conn) (r : NewRequest) : Except Fault Conn :=
  let s := setupStream c.ctx c.nextStreamId r.informationalCb
  let c := (registerStream c s).log
    (.opened s.streamId (r.request.method == ascii "HEAD"))
  if r.accepted = false then
    closeStream (c.log (.cancelled s.streamId)) s.streamId
  else do
    let s := r.setup c s
    let flat := flattenBlock c.outTable c.peerSettings.headerTableSize
      (.request { r.request with sendOwnExpect := s.sendOwnExpect })
    let c := c.setStream s.streamId fun _ => s
    let c := Conn.emit { c with outTable := flat.1 }
      (.headers s.streamId flat.2 (decide (s.req = .closed)))
    let c ← c.insertSending s.streamId
    .ok (requestWrite c)

-- ==== timeouts

/-- `do_stream_timeout`. -/
def doStreamTimeout (c : Conn) (streamId : Nat) : Except Fault Conn :=
  match c.getStream streamId with
  | none => .error .notRegistered
  | some s => do
      let c ← callCallbackWithError c streamId
        (if s.res = .head then .firstByteTimeout else .ioTimeout)
      closeStream c streamId

/-- `on_io_timeout`. -/
def onIoTimeout (c : Conn) : Except Fault Conn := do
  let c ← (c.streams.map (·.streamId)).foldlM doStreamTimeout c
  closeConnectionNow c

/-- `on_keepalive_timeout`. -/
def onKeepaliveTimeout (c : Conn) : Except Fault Conn :=
  closeConnection (requestWrite (enqueueGoaway c ⟨.none, none⟩))

-- ==== events

inductive Event where
  /-- `h2o_httpclient__h2_on_connect` puts a stream on the connection. -/
  | open (r : NewRequest)
  /-- `on_read` finds a frame. -/
  | frame (f : Frame) (ans : Answers)
  | readDone (room : Nat → Nat)
  | readError
  | deferTimeout (room : Nat → Nat)
  | writeComplete (err : Bool) (reactions : Nat → Reaction) (room : Nat → Nat)
  | notifyWrite (err : Bool) (room : Nat → Nat)
  | streamTimeout (streamId : Nat)
  | ioTimeout
  | keepaliveTimeout
  | writeReq (streamId : Nat) (chunk : Bytes) (isEndStream : Bool)
  | cancel (streamId : Nat)
  /-- The application has taken octets out of the buffer, and says so. -/
  | updateWindow (streamId : Nat) (consumed : Nat)

/-- The application still uses the stream. -/
def Stream.inUse (s : Stream) : Bool :=
  !s.told && (s.res != .closed || s.proceedReq)

/-- The application may call `write_req`. -/
def Stream.writable (s : Stream) : Bool :=
  s.inUse && s.proceedReq && s.mayWrite

/-- A stream may be put on the connection. The first one is; later ones are if
`find_h2conn` finds it. -/
def Conn.acceptsStream (c : Conn) : Bool :=
  c.linked && (c.maxOpenStreamId == 0 ||
    decide (c.numStreams < c.getMaxConcurrentStreams.toNat))

/-- The event can happen. -/
def Event.enabled (c : Conn) : Event → Bool
  | «open» _ => c.acceptsStream
  | frame _ _ => c.state != .isClosing
  | readDone _ => true
  | readError => c.state != .isClosing
  | deferTimeout _ => c.deferTimeout
  | writeComplete _ _ _ => c.sock == .writing
  | notifyWrite _ _ => c.sock == .notify
  | streamTimeout streamId => (c.getStream streamId).any (·.timeout)
  | ioTimeout => c.ioTimeout
  | keepaliveTimeout => c.keepaliveTimeout
  | writeReq streamId chunk isEndStream =>
    (c.getStream streamId).any (·.writable) && chunkOk chunk isEndStream
  | cancel streamId => (c.getStream streamId).any (·.inUse)
  | updateWindow streamId consumed =>
    (c.getStream streamId).any fun s =>
      s.inUse && decide (consumed ≤ s.bodySize)

/-- Write immediately, if a pending write exists. -/
def writeDeferred (c : Conn) (room : Nat → Nat) : Except Fault Conn :=
  if c.deferTimeout then doEmitWritereq { c with deferTimeout := false } room
  else .ok c

/-- The end of `on_read`. -/
def readDone (c : Conn) (room : Nat → Nat) : Except Fault Conn := do
  let c ← writeDeferred c room
  .ok { c with ioTimeout := true }

/-- What an event does. -/
def handle (c : Conn) : Event → Except Fault Conn
  | .open r => onConnectionReady { c with ioTimeout := true } r
  | .frame f ans =>
    parseFrame ({ c with ioTimeout := false }.log (.recv f)) f ans
  | .readDone room => readDone c room
  | .readError => do
      let c ← callStreamCallbacksWithError { c with ioTimeout := false } .io
      closeConnection c
  | .deferTimeout room =>
    doEmitWritereq { c with deferTimeout := false } room
  | .writeComplete err reactions room => onWriteComplete c err reactions room
  | .notifyWrite err room => onNotifyWrite c err room
  | .streamTimeout streamId =>
    doStreamTimeout (c.setStream streamId fun s => { s with timeout := false })
      streamId
  | .ioTimeout => onIoTimeout { c with ioTimeout := false }
  | .keepaliveTimeout =>
    onKeepaliveTimeout { c with keepaliveTimeout := false }
  | .writeReq streamId chunk isEndStream =>
    doWriteReq c streamId chunk isEndStream
  | .cancel streamId => doCancel c streamId
  | .updateWindow streamId consumed =>
    doUpdateWindow (c.setStream streamId fun s =>
      { s with bodySize := s.bodySize - consumed }) streamId

/-- A step of a run. -/
def step (c : Conn) (e : Event) : Except Fault Conn :=
  if c.alive && e.enabled c then handle c e else .ok c

end H2o.Http2Client
