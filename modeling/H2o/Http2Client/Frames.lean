/-
The frames the HTTP/2 client receives (`lib/common/http2client.c`): a handler
for each type, the three values of `conn->input.read_frame`, and what becomes
of the connection when a handler fails.
-/
import H2o.Http2Client.Streams

namespace H2o.Http2Client

open Http2

-- ==== DATA

/-- `handle_data_frame` once the frame is known to be one of the body. -/
def acceptData (c : Conn) (s : Stream) (f : Frame) (data : Bytes)
    (ans : Answers) : Except Fault Conn :=
  let c := { c with inWindow := c.inWindow - data.length }.setStream s.streamId
    fun s => { s with
      bodySize := s.bodySize + data.length - ans.consumed
      inWindow := s.inWindow - data.length }
  let err := if f.endStream then some Errstr.isEos else none
  let c := c.log (.onBody s.streamId err data [])
  if ans.onBody then
    if f.endStream then sendRstStream c s.streamId .internal
    else giveUp c s.streamId .internal
  else if f.endStream then closeResponse c s.streamId
  else do
    -- update connection-level window
    let (c, inWindow) ← enqueueWindowUpdate c 0 c.inWindow 16777216
    -- update stream-level window
    doUpdateWindow { c with inWindow } s.streamId

/-- A stream is reset and closed, and the application told so. -/
def resetStream (c : Conn) (streamId : Nat) (code : ErrorCode)
    (err : Errstr) : Except Fault Conn := do
  let c ← streamSendError c streamId code
  let c ← callCallbackWithError c streamId err
  closeStream c streamId

/-- `handle_data_frame` rejects the frame and closes the stream. -/
def rejectData (c : Conn) (streamId : Nat) : Except Fault Conn :=
  resetStream c streamId .protocol .protocolViolation

/-- The remaining length exceeds what the stream may still carry. -/
def Stream.lengthExceeded (s : Stream) (length : Nat) : Bool :=
  match s.remaining with
  | none => false
  | some remaining => decide (length > remaining)

/-- `handle_data_frame` on a stream. -/
def handleStreamData (c : Conn) (s : Stream) (f : Frame) (data : Bytes)
    (ans : Answers) : Except Fault Conn :=
  if s.res ≠ .body then rejectData c s.streamId
  else if s.messageBodyForbidden ∧ data.length ≠ 0 then
    rejectData c s.streamId
  else if s.lengthExceeded data.length then rejectData c s.streamId
  else
    let c := c.setStream s.streamId fun s =>
      { s with remaining := s.remaining.map (· - data.length) }
    if s.bodySize + data.length > c.ctx.getMaxBufferSize then do
      let c ← callCallbackWithError c s.streamId .flowControl
      let c ← streamSendError c s.streamId .flowControl
      closeStream c s.streamId
    else acceptData c s f data ans

/-- `handle_data_frame`. -/
def handleDataFrame (c : Conn) (f : Frame) (ans : Answers) :
    Except Fault (Conn × Option ConnError) :=
  match decodeDataPayload f with
  | .error e => .ok (c, some e)
  | .ok data =>
    match c.getStream f.streamId with
    | none =>
      if f.streamId ≤ c.maxOpenStreamId then do
        let (c, inWindow) ← enqueueWindowUpdate c 0 (c.inWindow - data.length)
            16777216
        .ok ({ c with inWindow }, none)
      else .ok (c, some ⟨.protocol, "invalid DATA frame"⟩)
    | some s => do
        let c ← handleStreamData c s f data ans
        .ok (c, none)

-- ==== HEADERS, CONTINUATION

/-- The block is complete: `on_trailers` or `on_head`. -/
def handleBlock (c : Conn) (streamId : Nat) (src : Bytes) (isEndStream : Bool)
    (ans : Answers) : Except Fault (Conn × Option ConnError) :=
  match c.getStream streamId with
  | none => onHead c none src isEndStream ans
  | some s =>
    if s.res = .body then onTrailers c s src ans
    else onHead c (some s) src isEndStream ans

/-- `handle_headers_frame`. -/
def handleHeadersFrame (c : Conn) (f : Frame) (ans : Answers) :
    Except Fault (Conn × Option ConnError) :=
  match decodeHeadersPayload f with
  | .error e => .ok (c, some e)
  | .ok (dependency, headers) =>
    if f.streamId % 2 = 0 then
      .ok (c, some ⟨.protocol, "invalid stream id in HEADERS frame"⟩)
    else if f.streamId = dependency then
      .ok (c, some ⟨.protocol, "stream cannot depend on itself"⟩)
    else if c.getStream f.streamId = none ∧ f.streamId > c.maxOpenStreamId then
      .ok (c, some ⟨.protocol, "invalid stream id in HEADERS frame"⟩)
    else
      let inBody := (c.getStream f.streamId).any (·.res == .body)
      let c := c.setStream f.streamId fun s => { s with timeout := false }
      if inBody ∧ f.endStream = false then
        .ok (c, some ⟨.protocol,
          "trailing HEADERS frame MUST have END_STREAM flag set"⟩)
      else if f.endHeaders = false then
        -- header is not complete, store in buffer
        .ok ({ c with
          readFrame := .expectContinuationOfHeaders f.endStream
          headersUnparsed := headers }, none)
      else handleBlock c f.streamId headers f.endStream ans

/-- `expect_continuation_of_headers`. -/
def expectContinuationOfHeaders (c : Conn) (f : Frame)
    (headersHadEndStream : Bool) (ans : Answers) :
    Except Fault (Conn × Option ConnError) :=
  match decodeFrame f 16384 with
  | .error e => .ok (c, some e)
  | .ok f =>
    if f.type ≠ .continuation then
      .ok (c, some ⟨.protocol, "expected CONTINUATION frame"⟩)
    else if (c.getStream f.streamId).any (·.res == .closed) then
      .ok (c, some ⟨.protocol, "unexpected stream id in CONTINUATION frame"⟩)
    else
      let src := c.headersUnparsed ++ f.payload
      if f.endHeaders then
        handleBlock { c with
          readFrame := .expectDefault, headersUnparsed := [] }
          f.streamId src headersHadEndStream ans
      else .ok ({ c with headersUnparsed := src }, none)

-- ==== RST_STREAM, GOAWAY

/-- `handle_priority_frame`. -/
def handlePriorityFrame (c : Conn) (f : Frame) : Conn × Option ConnError :=
  match decodePriorityPayload f with
  | .error e => (c, some e)
  | .ok dependency =>
    if f.streamId = dependency then
      (c, some ⟨.protocol, "stream cannot depend on itself"⟩)
    -- ignore PRIORITY frames
    else (c, none)

/-- The error string of `handle_rst_stream_frame`. A reset without an error
after the end of the response says that the rest of the request is not
needed. -/
def rstErrstr (s : Stream) (errorCode : UInt32) : Errstr :=
  if errorCode = 7 then .refusedStream
  else if errorCode = 0 ∧ s.res = .closed then .isEos
  else .io

/-- `handle_rst_stream_frame`. -/
def handleRstStreamFrame (c : Conn) (f : Frame) :
    Except Fault (Conn × Option ConnError) :=
  match decodeRstStreamPayload f with
  | .error e => .ok (c, some e)
  | .ok errorCode =>
    if f.streamId > c.maxOpenStreamId then
      .ok (c, some ⟨.protocol, "unexpected stream id in RST_STREAM frame"⟩)
    else
      match c.getStream f.streamId with
      | none => .ok (c, none)
      | some s => do
          let c ← callCallbackWithError c f.streamId (rstErrstr s errorCode)
          let c ← closeStream c f.streamId
          .ok (c, none)

/-- The streams after the last one the server has taken are refused. -/
def refuseStream (lastStreamId : Nat) (c : Conn) (streamId : Nat) :
    Except Fault Conn :=
  if streamId > lastStreamId then do
    let c ← callCallbackWithError c streamId .refusedStream
    closeStream c streamId
  else .ok c

/-- `handle_goaway_frame`. -/
def handleGoawayFrame (c : Conn) (f : Frame) :
    Except Fault (Conn × Option ConnError) :=
  match decodeGoawayPayload f with
  | .error e => .ok (c, some e)
  | .ok lastStreamId => do
      let c ← (c.streams.map (·.streamId)).foldlM (refuseStream lastStreamId) c
      -- stop opening new streams
      .ok ({ c with linked := false }, none)

-- ==== SETTINGS, WINDOW_UPDATE

/-- `update_stream_output_window`: whether the window has not overflown. -/
def updateStreamOutputWindow (c : Conn) (streamId : Nat) (delta : Int) :
    Except Fault (Conn × Bool) :=
  match c.getStream streamId with
  | none => .error .notRegistered
  | some s =>
    match windowUpdate s.outWindow delta with
    | none => .ok (c, false)
    | some after =>
      let c := c.setStream streamId fun s => { s with outWindow := after }
      if after > 0 ∧ s.hasBytes ∧ c.isSendingLinked streamId = false then
        .ok ({ c with sending := c.sending ++ [streamId] }, true)
      else .ok (c, true)

/-- `conn_get_buffer_window`. How much room `output.buf` and the congestion
window of the socket leave for a payload is up to the environment; both are
larger than a frame header, so that there is room when the buffer is empty. -/
def bufferWindow (c : Conn) (room : Nat) : Int :=
  min (if c.outBuf = [] then max room 1 else room) c.outWindow

/-- The end of the handlers that have changed a window. -/
def requestWriteIfRoom (c : Conn) (room : Nat) : Conn :=
  if bufferWindow c room > 0 then requestWrite c else c

/-- `handle_settings_frame` after the settings are read: `delta` is what the
initial window grows by, computed on unsigned integers of 32 bits. -/
def applySettings (c : Conn) (settings : Settings) (ans : Answers) :
    Except Fault Conn :=
  let prev := c.peerSettings.initialWindowSize
  let c := requestWrite ({ c with peerSettings := settings }.emit .settingsAck)
  if prev ≠ settings.initialWindowSize then do
    let delta : Int := (settings.initialWindowSize - prev).toNat
    let c ← (c.streams.map (·.streamId)).foldlM (fun c streamId => do
        let (c, _) ← updateStreamOutputWindow c streamId delta
        .ok c) c
    .ok (requestWriteIfRoom c ans.room)
  else .ok c

/-- `handle_settings_frame`. -/
def handleSettingsFrame (c : Conn) (f : Frame) (ans : Answers) :
    Except Fault (Conn × Option ConnError) :=
  if f.streamId ≠ 0 then
    .ok (c, some ⟨.protocol, "invalid stream id in SETTINGS frame"⟩)
  else if f.ack then
    if f.payload.length ≠ 0 then
      .ok (c, some ⟨.frameSize, "invalid SETTINGS frame (+ACK)"⟩)
    else .ok (c, none)
  else
    match updatePeerSettings c.peerSettings f.payload with
    | (settings, some e) => .ok ({ c with peerSettings := settings }, some e)
    | (settings, none) => do
        let c ← applySettings c settings ans
        .ok (c, none)

/-- A WINDOW_UPDATE frame that is an error of its stream. -/
def rejectWindowUpdate (c : Conn) (streamId : Nat) (code : ErrorCode) :
    Except Fault Conn :=
  if (c.getStream streamId).isSome then
    resetStream c streamId code .protocolViolation
  else streamSendError c streamId code

/-- A WINDOW_UPDATE frame for a stream. -/
def windowUpdateOfStream (c : Conn) (s : Stream) (increment : Nat)
    (ans : Answers) : Except Fault Conn := do
  let (c, updated) ← updateStreamOutputWindow c s.streamId increment
  if updated then .ok (requestWriteIfRoom c ans.room)
  else resetStream c s.streamId .flowControl .flowControl

/-- `handle_window_update_frame`. -/
def handleWindowUpdateFrame (c : Conn) (f : Frame) (ans : Answers) :
    Except Fault (Conn × Option ConnError) :=
  match decodeWindowUpdatePayload f with
  | .error (e, true) => do
      let c ← rejectWindowUpdate c f.streamId e.code
      .ok (c, none)
  | .error (e, false) => .ok (c, some e)
  | .ok increment =>
    if f.streamId = 0 then
      match windowUpdate c.outWindow increment with
      | none => .ok (c, some ⟨.flowControl, "flow control window overflow"⟩)
      | some outWindow =>
        .ok (requestWriteIfRoom { c with outWindow } ans.room, none)
    else if f.streamId ≤ c.maxOpenStreamId then
      match c.getStream f.streamId with
      | none => .ok (requestWriteIfRoom c ans.room, none)
      | some s => do
          let c ← windowUpdateOfStream c s increment ans
          .ok (c, none)
    else
      .ok (c, some ⟨.protocol, "invalid stream id in WINDOW_UPDATE frame"⟩)

-- ==== PING

/-- `handle_ping_frame`. -/
def handlePingFrame (c : Conn) (f : Frame) : Conn × Option ConnError :=
  match decodePingPayload f with
  | .error e => (c, some e)
  | .ok data =>
    if f.ack then (c, none) else (requestWrite (c.emit (.ping data)), none)

-- ==== any frame

/-- `expect_default`. -/
def expectDefault (c : Conn) (f : Frame) (ans : Answers) :
    Except Fault (Conn × Option ConnError) :=
  match decodeFrame f 16384 with
  | .error e => .ok (c, some e)
  | .ok f =>
    match f.type with
    | .data => handleDataFrame c f ans
    | .headers => handleHeadersFrame c f ans
    | .priority => .ok (handlePriorityFrame c f)
    | .rstStream => handleRstStreamFrame c f
    | .settings => handleSettingsFrame c f ans
    | .pushPromise => .ok (c, some ⟨.protocol, "received PUSH_PROMISE frame"⟩)
    | .ping => .ok (handlePingFrame c f)
    | .goaway => handleGoawayFrame c f
    | .windowUpdate => handleWindowUpdateFrame c f ans
    | .continuation =>
      .ok (c, some ⟨.protocol, "received invalid CONTINUATION frame"⟩)
    | .unknown _ => .ok (c, none)

/-- `expect_settings`. -/
def expectSettings (c : Conn) (f : Frame) (ans : Answers) :
    Except Fault (Conn × Option ConnError) :=
  match decodeFrame f 16384 with
  | .error e => .ok (c, some e)
  | .ok f =>
    if f.type ≠ .settings then
      .ok (c, some ⟨.protocolCloseImmediately, none⟩)
    else
      match handleSettingsFrame c f ans with
      | .ok (c, none) => .ok ({ c with readFrame := .expectDefault }, none)
      | r => r

/-- `conn->input.read_frame`. -/
def readFrame (c : Conn) (f : Frame) (ans : Answers) :
    Except Fault (Conn × Option ConnError) :=
  match c.readFrame with
  | .expectSettings => expectSettings c f ans
  | .expectDefault => expectDefault c f ans
  | .expectContinuationOfHeaders headersHadEndStream =>
    expectContinuationOfHeaders c f headersHadEndStream ans

-- ==== the end of a connection

/-- `close_connection_now`. -/
def closeConnectionNow (c : Conn) : Except Fault Conn := do
  let c ← (c.streams.map (·.streamId)).foldlM closeStream c
  if c.sending ≠ [] ∨ c.sent ≠ [] then .error .streamsLinked
  else
    .ok { c with
      alive := false
      linked := false
      ioTimeout := false
      keepaliveTimeout := false
      deferTimeout := false
      sock := .idle }

/-- `close_connection`. -/
def closeConnection (c : Conn) : Except Fault Conn :=
  let c := { c with state := .isClosing }
  -- a pending write lets `close_connection_if_necessary` close the connection
  if c.inFlight ∨ c.deferTimeout then .ok c else closeConnectionNow c

/-- A half-closed connection without streams is to be closed. -/
def Conn.closeIfIdle (c : Conn) : Conn :=
  if c.state = .halfClosed ∧ c.numStreams = 0 then
    { c with state := .isClosing }
  else c

/-- `close_connection_if_necessary`: whether the connection is closed. -/
def closeConnectionIfNecessary (c : Conn) : Except Fault (Conn × Bool) :=
  if c.closeIfIdle.state = .isClosing then do
    let c ← closeConnectionNow c.closeIfIdle
    .ok (c, true)
  else .ok (c.closeIfIdle, false)

/-- `enqueue_goaway`. -/
def enqueueGoaway (c : Conn) (error : ConnError) : Conn :=
  if c.state = .isClosing then c
  else
    { requestWrite (c.emit (.goaway error)) with
      state := .halfClosed
      -- stop opening new streams
      linked := false }

/-- The GOAWAY frame for an error. -/
def reportError (c : Conn) (error : ConnError) : Conn :=
  if error.code = .protocolCloseImmediately then c else enqueueGoaway c error

/-- The error path of `parse_input`. -/
def connectionError (c : Conn) (error : ConnError) : Except Fault Conn := do
  let c ← callStreamCallbacksWithError (reportError c error) .protocolViolation
  closeConnection c

/-- A turn of the loop of `parse_input`. -/
def parseFrame (c : Conn) (f : Frame) (ans : Answers) : Except Fault Conn :=
  match readFrame c f ans with
  | .error fault => .error fault
  | .ok (c, none) => .ok c
  | .ok (c, some e) => connectionError c e

end H2o.Http2Client
