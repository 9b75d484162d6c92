/-
What an HTTP/2 server receives (`lib/http2/connection.c`,
`h2o_http2_decode_frame` of `lib/http2/frame.c`).

# Handlers

A handler gives the connection and a result code: zero, or an error of the
connection. `_read_expect` gives the number of octets to take from the input,
or a code; `H2O_HTTP2_ERROR_INCOMPLETE` is that the frame has not been received
yet.

# Reads

`parse_input` handles one frame after the other. What the application does
meanwhile (`Call`) comes between the frames.
-/
import H2o.Http2Conn.Response

namespace H2o.Http2Conn

open Http2 Hpack Except

-- ==== frames

/-- `H2O_HTTP2_FRAME_HEADER_SIZE`. -/
def frameHeaderSize : Nat := 9

/-- `H2O_HTTP2_SETTINGS_HOST_MAX_FRAME_SIZE`. -/
def hostMaxFrameSize : Nat := 16384

/-- `H2O_MAX_REQLEN`, with `H2O_MAX_HEADERS` being 100. -/
def maxReqlen : Nat := 8192 + 4096 * 100

/-- `CONNECTION_PREFACE`. -/
def connectionPreface : Bytes :=
  [0x50, 0x52, 0x49, 0x20, 0x2a, 0x20, 0x48, 0x54, 0x54, 0x50, 0x2f, 0x32,
    0x2e, 0x30, 0x0d, 0x0a, 0x0d, 0x0a, 0x53, 0x4d, 0x0d, 0x0a, 0x0d, 0x0a]

def frameType (type : UInt8) : FrameType :=
  match type with
  | 0 => .data
  | 1 => .headers
  | 2 => .priority
  | 3 => .rstStream
  | 4 => .settings
  | 5 => .pushPromise
  | 6 => .ping
  | 7 => .goaway
  | 8 => .windowUpdate
  | 9 => .continuation
  | type => .unknown type

/-- `h2o_http2_decode24u`. -/
def decode24u (a b c : UInt8) : Nat :=
  a.toNat * 65536 + b.toNat * 256 + c.toNat

/-- `h2o_http2_decode_frame`: the frame and the input behind it, or a code. -/
def readFrame (src : Bytes) : Except Int (Frame × Bytes) :=
  match src with
  | a :: b :: c :: type :: flags :: d :: e :: f :: g :: src =>
    let length := decode24u a b c
    if length > hostMaxFrameSize then .error (value .frameSize)
    else if src.length < length then .error incomplete
    else
      .ok (⟨frameType type, flags, decodeDependency d e f g, src.take length⟩,
        src.drop length)
  | _ => .error incomplete

/-- A frame that is complete: its payload and the rest of the input are behind
its header. -/
theorem readFrame_ok {src rest : Bytes} {f : Frame}
    (h : readFrame src = .ok (f, rest)) :
    ∃ header : Bytes, header.length = frameHeaderSize ∧
      src = header ++ (f.payload ++ rest) := by
  unfold readFrame at h
  split at h
  next a b c type flags d e g i src =>
    dsimp only at h
    split_ifs at h with hlong hshort
    cases h
    refine ⟨[a, b, c, type, flags, d, e, g, i], rfl, ?_⟩
    rw [List.take_append_drop]
    rfl
  · cases h

theorem readFrame_error {src : Bytes} {code : Int}
    (h : readFrame src = .error code) :
    code = incomplete ∨ code = value .frameSize := by
  unfold readFrame at h
  split at h
  · dsimp only at h
    split_ifs at h
    · exact .inr (error.inj h).symm
    · exact .inl (error.inj h).symm
  · exact .inl (error.inj h).symm

/-- A result code. -/
abbrev Result := Except Fault (Conn × Int)

/-- An error of the connection. -/
def fail (c : Conn) (e : ConnError) : Result := .ok (c, value e.code)

/-- No error. -/
def done (r : Except Fault Conn) : Result := r.map fun c => (c, 0)

namespace Conn

-- ==== header blocks

/-- `send_invalid_request_error`, up to the response, which is sent by calls
that follow. -/
def sendInvalidRequestError (c : Conn) (id : Nat) : Except Fault Conn := do
  let c ← c.setState id .reqPending
  c.setState id .sendHeaders

/-- `SendRSTStream` of `handle_incoming_request`. -/
def sendRstStream (c : Conn) (id : Nat) (errnum : Int) :
    Except Fault Conn := do
  let c ← c.streamSendError id errnum
  c.streamReset id

/-- `ProcessImmediately` of `handle_incoming_request`. -/
def processImmediately (c : Conn) (id : Nat) : Except Fault Conn := do
  let s ← c.stream id
  let c ← (c.put { s with entity := some 0, proceedReq := true }).setState id
    .recvBody
  let c ← c.setReqBodyState id .open
  c.processRequest id

/-- `is_connect`, `must_exist_map` and `may_exist_map`; `none` for a
CONNECT-UDP request that is not one of the draft. -/
def requestKind (r : RequestHead) : Option (Bool × ExistsMap × ExistsMap) :=
  let method := r.method.getD []
  if method = ascii "CONNECT" then
    some (true, { ExistsMap.none with
        method := true, authority := true
        scheme := r.existsMap.protocol, path := r.existsMap.protocol
        protocol := r.existsMap.protocol },
      .none)
  else if method = ascii "CONNECT-UDP" then
    if r.existsMap.protocol = false ∧ r.path = some (ascii "/") then
      some (true, { ExistsMap.none with
          method := true, scheme := true, authority := true, path := true },
        .none)
    else none
  else
    some (false, { ExistsMap.none with
      method := true, scheme := true, path := true },
      { ExistsMap.none with authority := true })

/-- All of `must` exist, and nothing but `must` and `may`. -/
def existsOk (map must may : ExistsMap) : Bool :=
  (must.method → map.method) ∧ (must.scheme → map.scheme) ∧
    (must.authority → map.authority) ∧ (must.path → map.path) ∧
    (must.protocol → map.protocol) ∧
    (map.method → must.method ∨ may.method) ∧
    (map.scheme → must.scheme ∨ may.scheme) ∧
    (map.authority → must.authority ∨ may.authority) ∧
    (map.path → must.path ∨ may.path) ∧
    (map.protocol → must.protocol ∨ may.protocol)

/-- `handle_incoming_request`, for a request that is well-formed. -/
def acceptRequest (c : Conn) (env : Env) (id : Nat) (isConnect : Bool)
    (r : RequestHead) : Except Fault Conn := do
  let s ← c.stream id
  if isConnect then
    if r.contentLength.isSome ∨ s.hasBuf = false then
      c.sendInvalidRequestError id
    else (c.put { s with isTunnel := true }).processImmediately id
  else if r.expect.any fun e => !lcstris e "100-continue" then
    -- 417
    c.sendInvalidRequestError id
  else if r.expect.isSome ∧ env.forwardExpect then c.processImmediately id
  else if s.hasBuf = false then c.executeOrEnqueueRequest id
  else
    let c ← c.setState id .recvBody
    c.setReqBodyState id .openBeforeFirstFrame

/-- `handle_incoming_request`, after the block has been parsed. -/
def handleRequest (c : Conn) (env : Env) (id : Nat) (r : RequestHead) :
    Except Fault Conn := do
  let s ← c.stream id
  let c :=
    c.put { s with headers := r.headers, contentLength := r.contentLength }
  match requestKind r with
  | none => c.sendRstStream id (value .protocol)
  | some (isConnect, must, may) =>
    if existsOk r.existsMap must may = false then
      c.sendRstStream id (value .protocol)
    else if c.pull.open_.toNat > c.cfg.maxStreams then
      c.sendRstStream id (value .refusedStream)
    -- 400 if the request contains invalid header characters
    else if r.errDesc.isSome then c.sendInvalidRequestError id
    else c.acceptRequest env id isConnect r

/-- `handle_incoming_request`. -/
def handleIncomingRequest (c : Conn) (env : Env) (id : Nat) (src : Bytes) :
    Result := do
  let s ← c.stream id
  if s.state ≠ .recvHeaders then .error .assertion
  else
    let c := { c with blocks := c.blocks ++ [(id, src)] }
    match parseRequest c.inputTable false [] src with
    -- all errors except invalid-header-char are connection errors
    | .error e => fail c e
    | .ok (t, r) => done ({ c with inputTable := t }.handleRequest env id r)

/-- `handle_trailing_headers`. -/
def handleTrailingHeaders (c : Conn) (env : Env) (id : Nat) (src : Bytes) :
    Result := do
  let s ← c.stream id
  let c := { c with blocks := c.blocks ++ [(id, src)] }
  match parseRequest c.inputTable true s.headers src with
  | .error e => fail c e
  | .ok (t, r) =>
    let c := { c with inputTable := t }
    if r.errDesc.isSome then .ok (c, invalidHeaderChar)
    else
      done ((c.put { s with headers := r.headers }).handleRequestBodyChunk env
        id 0 true)

/-- `PREPARE_FOR_CONTINUATION` of `handle_headers_frame`. -/
def prepareForContinuation (c : Conn) (src : Bytes) : Conn :=
  { c with readExpect := .continuation, headersUnparsed := some src }

-- ==== handlers

/-- `handle_data_frame`. -/
def handleDataFrame (c : Conn) (env : Env) (f : Frame) : Result :=
  match decodeDataPayload f with
  | .error e => fail c e
  | .ok payload =>
    match c.getStream f.streamId with
    | none =>
      if f.streamId ≤ c.pullMaxOpen then
        done (c.streamSendError f.streamId streamClosed)
      else fail c ⟨.protocol, "invalid DATA frame"⟩
    | some s =>
      if s.body ≠ .openBeforeFirstFrame ∧ s.body ≠ .open then
        done (do
          let c ← c.streamSendError f.streamId streamClosed
          c.streamReset f.streamId)
      else if payload ≠ [] ∨ f.endStream then
        done (c.handleRequestBodyChunk env f.streamId payload.length
          f.endStream)
      else .ok (c, 0)

/-- `handle_headers_frame` of a stream that has been opened before. -/
def handleTrailersFrame (c : Conn) (env : Env) (f : Frame) (src : Bytes) :
    Result :=
  match c.getStream f.streamId with
  | none => .ok (c, streamClosed)
  | some s =>
    if s.body ≠ .openBeforeFirstFrame ∧ s.body ≠ .open then
      fail c ⟨.protocol, "invalid stream id in HEADERS frame"⟩
    else if s.isTunnel then
      fail c ⟨.protocol, "trailer cannot be used in a CONNECT request"⟩
    else if f.endStream = false then
      fail c ⟨.protocol,
        "trailing HEADERS frame MUST have END_STREAM flag set"⟩
    else if f.endHeaders = false then .ok (c.prepareForContinuation src, 0)
    else c.handleTrailingHeaders env f.streamId src

/-- `handle_headers_frame` of a new request. -/
def handleRequestFrame (c : Conn) (env : Env) (f : Frame) (src : Bytes) :
    Result := do
  -- open or determine the stream and prepare
  let c :=
    match c.getStream f.streamId with
    | some _ => c
    | none => c.streamOpen f.streamId
  let c ← c.prepareForRequest f.streamId
  let s ← c.stream f.streamId
  let c := if f.endStream then c
    else c.put { s with hasBuf := true, bufSize := 0 }
  if f.endHeaders then c.handleIncomingRequest env f.streamId src
  else .ok (c.prepareForContinuation src, 0)

/-- `handle_headers_frame`. -/
def handleHeadersFrame (c : Conn) (env : Env) (f : Frame) : Result :=
  match decodeHeadersPayload f with
  | .error e => fail c e
  | .ok (dependency, src) =>
    if f.streamId % 2 = 0 then
      fail c ⟨.protocol, "invalid stream id in HEADERS frame"⟩
    else if f.streamId ≤ c.pullMaxOpen then c.handleTrailersFrame env f src
    else if f.streamId = dependency then
      fail c ⟨.protocol, "stream cannot depend on itself"⟩
    else c.handleRequestFrame env f src

/-- `handle_priority_frame`. -/
def handlePriorityFrame (c : Conn) (f : Frame) : Result :=
  match decodePriorityPayload f with
  | .error e => fail c e
  | .ok dependency =>
    if f.streamId = dependency then
      fail c ⟨.protocol, "stream cannot depend on itself"⟩
    else
      match c.getStream f.streamId with
      | some _ => .ok (c, 0)
      | none =>
        -- ignore closed streams, and idle pushed ones
        if Stream.isPush f.streamId ∨ f.streamId ≤ c.pullMaxOpen then
          .ok (c, 0)
        else if c.priority.open_.toNat ≥ c.cfg.maxStreamsForPriority then
          .ok (c, enhanceYourCalm)
        else .ok (c.streamOpen f.streamId, 0)

/-- `is_idle_stream_id`. -/
def isIdleStreamId (c : Conn) (id : Nat) : Bool :=
  (if Stream.isPush id then c.pushMaxOpen else c.pullMaxOpen) < id

/-- `handle_rst_stream_frame`. -/
def handleRstStreamFrame (c : Conn) (f : Frame) : Result :=
  match decodeRstStreamPayload f with
  | .error e => fail c e
  | .ok _ =>
    if c.isIdleStreamId f.streamId then
      fail c ⟨.protocol, "unexpected stream id in RST_STREAM frame"⟩
    else
      match c.getStream f.streamId with
      | none => .ok (c, 0)
      | some _ => done (c.streamReset f.streamId)

/-- `update_stream_output_window`; `none` is a failure. -/
def updateStreamOutputWindow (c : Conn) (s : Stream) (delta : Int) :
    Except Fault (Option Stream) :=
  match windowUpdate s.outputWindow delta with
  | none => .ok none
  | some window =>
    if s.outputWindow ≤ 0 ∧ window > 0 ∧
        (s.data ∨ s.state = .sendBodyIsFinal) ∧ c.isLinked s.id then
      .error .assertion
    else .ok (some { s with outputWindow := window })

/-- The loop of `handle_settings_frame`, which does not look at failures. -/
def adjustOutputWindows (c : Conn) (delta : Int) :
    List Stream → Except Fault (List Stream)
  | [] => .ok []
  | s :: ss => do
      let s' ← c.updateStreamOutputWindow s delta
      let ss' ← c.adjustOutputWindows delta ss
      .ok (s'.getD s :: ss')

/-- `handle_settings_frame`. -/
def handleSettingsFrame (c : Conn) (f : Frame) : Result :=
  if f.streamId ≠ 0 then
    fail c ⟨.protocol, "invalid stream id in SETTINGS frame"⟩
  else if f.ack then
    if f.payload ≠ [] then fail c ⟨.frameSize, "invalid SETTINGS frame (+ACK)"⟩
    else .ok (c, 0)
  else
    let prev := c.peerSettings.initialWindowSize
    let r := updatePeerSettings c.peerSettings f.payload
    let c := { c with peerSettings := r.1 }
    match r.2 with
    | some e => fail c e
    | none =>
      if prev ≠ r.1.initialWindowSize then
        done (do
          let streams ← c.adjustOutputWindows
            ((r.1.initialWindowSize.toNat : Int) - prev.toNat) c.streams
          .ok { c with streams := streams })
      else .ok (c, 0)

/-- A WINDOW_UPDATE frame that is an error of its stream. -/
def windowUpdateError (c : Conn) (id : Nat) (errnum : Int) :
    Except Fault Conn := do
  let c ←
    (match c.getStream id with
    | none => .ok c
    | some _ => c.streamReset id)
  c.streamSendError id errnum

/-- `handle_window_update_frame`. -/
def handleWindowUpdateFrame (c : Conn) (f : Frame) : Result :=
  match decodeWindowUpdatePayload f with
  | .error (e, true) => done (c.windowUpdateError f.streamId (value e.code))
  | .error (e, false) => fail c e
  | .ok increment =>
    if f.streamId = 0 then
      match windowUpdate c.writeWindow increment with
      | none => fail c ⟨.flowControl, "flow control window overflow"⟩
      | some window => .ok ({ c with writeWindow := window }, 0)
    else if c.isIdleStreamId f.streamId then
      fail c ⟨.protocol, "invalid stream id in WINDOW_UPDATE frame"⟩
    else
      match c.getStream f.streamId with
      | none => .ok (c, 0)
      | some s => do
          match ← c.updateStreamOutputWindow s increment with
          | none =>
            done (c.windowUpdateError f.streamId (value .flowControl))
          | some s => .ok (c.put s, 0)

/-- `handle_ping_frame`. -/
def handlePingFrame (c : Conn) (f : Frame) : Result :=
  match decodePingPayload f with
  | .error e => fail c e
  | .ok _ => .ok (c, 0)

/-- `handle_goaway_frame`. -/
def handleGoawayFrame (c : Conn) (f : Frame) : Result :=
  match decodeGoawayPayload f with
  | .error e => fail c e
  -- stop opening new push streams hereafter
  | .ok _ => .ok ({ c with pushMaxOpen := 0x7ffffffe }, 0)

/-- `FRAME_HANDLERS`. -/
def frameHandler (c : Conn) (env : Env) (f : Frame) : Result :=
  match f.type with
  | .data => c.handleDataFrame env f
  | .headers => c.handleHeadersFrame env f
  | .priority => c.handlePriorityFrame f
  | .rstStream => c.handleRstStreamFrame f
  | .settings => c.handleSettingsFrame f
  | .pushPromise => fail c ⟨.protocol, "received PUSH_PROMISE frame"⟩
  | .ping => c.handlePingFrame f
  | .goaway => c.handleGoawayFrame f
  | .windowUpdate => c.handleWindowUpdateFrame f
  | .continuation => fail c ⟨.protocol, "received invalid CONTINUATION frame"⟩
  | .unknown _ => .ok (c, 0)

/-- `expect_continuation_of_headers`, once a frame has been decoded. -/
def handleContinuationFrame (c : Conn) (env : Env) (f : Frame) : Result :=
  if f.type ≠ .continuation then
    fail c ⟨.protocol, "expected CONTINUATION frame"⟩
  else
    match c.getStream f.streamId with
    | none => fail c ⟨.protocol, "unexpected stream id in CONTINUATION frame"⟩
    | some s =>
      if s.state ≠ .recvHeaders ∧ s.state ≠ .recvBody then
        fail c ⟨.protocol, "unexpected stream id in CONTINUATION frame"⟩
      else
        let unparsed := c.headersUnparsed.getD []
        if unparsed.length + f.payload.length ≤ maxReqlen then
          let src := unparsed ++ f.payload
          if f.endHeaders then
            let c := { c with readExpect := .default, headersUnparsed := none }
            if s.state = .recvHeaders then
              c.handleIncomingRequest env f.streamId src
            else c.handleTrailingHeaders env f.streamId src
          else .ok ({ c with headersUnparsed := some src }, 0)
        else
          -- request is too large
          done (c.sendRstStream f.streamId (value .refusedStream))

-- ==== reads

/-- `expect_default` or `expect_continuation_of_headers`, once a frame has been
decoded. -/
def handleFrame (c : Conn) (env : Env) (f : Frame) : Result :=
  match c.readExpect with
  | .continuation => c.handleContinuationFrame env f
  | .preface | .default => c.frameHandler env f

/-- `expect_preface`. -/
def expectPreface (c : Conn) (src : Bytes) : Conn × Int :=
  if src.length < connectionPreface.length then (c, incomplete)
  else if src.take connectionPreface.length ≠ connectionPreface then
    (c, protocolCloseImmediately)
  else ({ c with readExpect := .default }, connectionPreface.length)

/-- `_read_expect`: the number of octets to take, or a code. -/
def expect (c : Conn) (env : Env) (src : Bytes) : Result :=
  match c.readExpect with
  | .preface => .ok (c.expectPreface src)
  | .default | .continuation =>
    match readFrame src with
    | .error code => .ok (c, code)
    | .ok (f, rest) =>
      (c.handleFrame env f).map fun r =>
        (r.1, if r.2 ≠ 0 then r.2 else (src.length : Int) - rest.length)

section Expect

variable {c : Conn} {env : Env} {src rest : Bytes} {f : Frame} {code : Int}

theorem expect_preface (h : c.readExpect = .preface) :
    c.expect env src = .ok (c.expectPreface src) := by
  simp only [expect, h]

theorem expect_error (h : c.readExpect ≠ .preface)
    (hread : readFrame src = .error code) :
    c.expect env src = .ok (c, code) := by
  unfold expect
  split
  · contradiction
  all_goals simp only [hread]

theorem expect_frame (h : c.readExpect ≠ .preface)
    (hread : readFrame src = .ok (f, rest)) :
    c.expect env src = (c.handleFrame env f).map fun r =>
      (r.1, if r.2 ≠ 0 then r.2 else (src.length : Int) - rest.length) := by
  unfold expect
  split
  · contradiction
  all_goals simp only [hread]

end Expect

end Conn

/-- The connection with `sock->input`. `frames` are those that have been given
to the handlers. -/
structure Reader where
  conn : Conn
  input : Bytes
  frames : List Frame

namespace Reader

def create (cfg : Config) : Reader := ⟨.create cfg, [], []⟩

/-- The frame that is handled next. -/
def nextFrame (r : Reader) : List Frame :=
  match r.conn.readExpect with
  | .preface => []
  | .default | .continuation =>
    match readFrame r.input with
    | .error _ => []
    | .ok (f, _) => [f]

/-- What follows `_read_expect` in `parse_input`, and whether there may be
another round. -/
def afterExpect (r : Reader) (result : Conn × Int) : Reader × Bool :=
  let r := { r with conn := result.1, frames := r.frames ++ r.nextFrame }
  if result.2 = incomplete then (r, false)
  else if result.2 < 0 then
    ({ r with conn :=
        (if result.2 = protocolCloseImmediately then r.conn
        else r.conn.enqueueGoaway result.2).closeConnection }, false)
  else ({ r with input := r.input.drop result.2.toNat }, true)

/-- One round of `parse_input`. -/
def parseFrame (r : Reader) (env : Env) : Except Fault (Reader × Bool) :=
  if r.conn.state = .isClosing ∨ r.input = [] then .ok (r, false)
  else (r.conn.expect env r.input).map r.afterExpect

end Reader

-- ==== events

inductive Event where
  /-- Octets are received. -/
  | receive (bytes : Bytes)
  /-- A round of `parse_input`. -/
  | parse (env : Env)
  | call (call : Call)

def Reader.step (r : Reader) : Event → Except Fault Reader
  | .receive bytes => .ok { r with input := r.input ++ bytes }
  | .parse env => (r.parseFrame env).map Prod.fst
  | .call call => (r.conn.call call).map fun c => { r with conn := c }

-- ==== whole reads

/-- What is decided elsewhere, from what the connection has been given: the
answers to a handler, what is called while a frame is handled, and what
`do_emit_writereq` sends at the end of a read. -/
structure App where
  env : Conn → List Frame → Env
  calls : Conn → List Frame → List Call
  writes : Conn → List Frame → List Call

namespace Reader

def call (r : Reader) (calls : List Call) : Except Fault Reader :=
  (calls.foldlM Conn.call r.conn).map fun c => { r with conn := c }

/-- A round, with what is called in it. -/
def parseRound (app : App) (r : Reader) : Except Fault (Reader × Bool) := do
  let p ← r.parseFrame (app.env r.conn r.frames)
  if p.2 then
    let r ← p.1.call (app.calls p.1.conn p.1.frames)
    .ok (r, true)
  else .ok p

/-- `parse_input`; each round takes at least one octet. -/
def parseInput (app : App) : Nat → Reader → Except Fault Reader
  | 0, r => .ok r
  | n + 1, r => do
      let p ← r.parseRound app
      if p.2 then p.1.parseInput app n else .ok p.1

/-- `on_read`. -/
def onRead (app : App) (r : Reader) (bytes : Bytes) : Except Fault Reader := do
  let r := { r with input := r.input ++ bytes }
  let r ← r.parseInput app r.input.length
  r.call (app.writes r.conn r.frames)

end Reader

end H2o.Http2Conn
