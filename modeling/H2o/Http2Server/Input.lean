/-
The input windows of the HTTP/2 server (`lib/http2/connection.c`).

# Windows

The server keeps a window for the connection and one for each stream. DATA
frames consume both. The window of the connection is filled up as soon as half
of it is used; that of a stream grows by `bytes_unnotified`, to which padding,
the bytes the application has taken and, once, the difference between the
active and the initial window size are added. A WINDOW_UPDATE frame goes out
when `bytes_unnotified` has come up to what is left of the window.

# Request bodies

A body is collected until the request is run, or streamed: then `write_req` is
called with what has arrived (`entity`), and the application calls
`proceed_req` when it has taken it. Requests are run when the connection gets
to them. What is decided outside of this code is part of the events (`Env`):
whether the handler takes a streamed body, what `write_req` returns, whether a
stream that is reset is gone at once. A call of `proceed_req` from within
`write_req` is one that follows it.

An error of the connection, and the frames other than WINDOW_UPDATE, are left
out: neither changes a window. `emitted` are the WINDOW_UPDATE frames written,
`arrived` is the number of bytes of DATA frames by stream.
-/
import Mathlib.Tactic

namespace H2o.Http2Server

-- ==== constants

/-- `INT32_MAX`. -/
def int32Max : Nat := 2 ^ 31 - 1

/-- `H2O_HTTP2_SETTINGS_HOST_CONNECTION_WINDOW_SIZE`, which is
`H2O_HTTP2_MAX_STREAM_WINDOW_SIZE`. -/
def connectionWindowSize : Nat := 16777216

/-- `H2O_HTTP2_SETTINGS_HOST_STREAM_INITIAL_WINDOW_SIZE`, which is
`H2O_HTTP2_MIN_STREAM_WINDOW_SIZE`. -/
def streamInitialWindowSize : Nat := 65535

/-- `H2O_HTTP2_SETTINGS_HOST_MAX_FRAME_SIZE`. -/
def maxFrameSize : Nat := 16384

/-- The configuration; the bounds are those of
`on_config_http2_input_window_size`. -/
structure Config where
  activeStreamWindowSize : Nat
  maxRequestEntitySize : Nat
  window_min : streamInitialWindowSize ≤ activeStreamWindowSize
  window_max : activeStreamWindowSize ≤ connectionWindowSize

/-- What a stream gets in addition when its request is run. -/
def Config.grant (cfg : Config) : Nat :=
  cfg.activeStreamWindowSize - streamInitialWindowSize

-- ==== state

/-- `enum en_h2o_req_body_state_t`. -/
inductive ReqBodyState where
  | none
  | openBeforeFirstFrame
  | open
  | closeQueued
  | closeDelivered
deriving DecidableEq

/-- `h2o_http2_stream_t`, as far as its request body is concerned. `entity` is
the length of `req.entity`, `none` when its base is `NULL`; `buf` is the size
of `req_body.buf`; `pending` says that the stream is in `_pending_reqs`. -/
structure Stream where
  avail : Int
  bytesUnnotified : Nat
  state : ReqBodyState
  streamed : Bool
  proceedReq : Bool
  writeReq : Bool
  entity : Option Nat
  buf : Nat
  received : Nat
  contentLength : Option Nat
  pending : Bool
deriving DecidableEq

/-- `h2o_http2_stream_open`, with the state of the body. -/
def Stream.create (state : ReqBodyState) (contentLength : Option Nat) :
    Stream where
  avail := streamInitialWindowSize
  bytesUnnotified := 0
  state := state
  streamed := false
  proceedReq := false
  writeReq := false
  entity := Option.none
  buf := 0
  received := 0
  contentLength := contentLength
  pending := false

inductive Fault where
  /-- `delta <= INT32_MAX` in `send_window_update`. -/
  | windowDelta
  /-- Another assertion. -/
  | assertion
  /-- `h2o_fatal`. -/
  | fatal
deriving DecidableEq

/-- What is decided elsewhere while a chunk is handled: what
`h2o_req_can_stream_request` and `reset_stream_if_disregarded` find, whether
`write_req` fails, and whether a stream that is reset is closed at once. -/
structure Env where
  canStream : Bool
  disregarded : Bool
  writeFails : Bool
  closes : Bool
deriving DecidableEq

-- ==== windows

/-- An `ssize_t` that is compared with a `size_t`. -/
def toSizeT (v : Int) : Nat := (v % 2 ^ 64).toNat

/-- `h2o_http2_window_update`, whose failure nobody looks at. -/
def windowUpdate (avail delta : Int) : Int :=
  if avail + delta > int32Max then avail else avail + delta

/-- `send_window_update`: the window, and the increment that is sent. -/
def sendWindowUpdate (avail : Int) (delta : Nat) : Except Fault (Int × Nat) :=
  if delta > int32Max then .error .windowDelta
  else .ok (windowUpdate avail delta, delta)

/-- `update_stream_input_window`: the stream, and the increments that are
sent. -/
def updateStreamInputWindow (s : Stream) (delta : Nat) :
    Except Fault (Stream × List Nat) :=
  let bytesUnnotified := (s.bytesUnnotified + delta) % 2 ^ 64
  if bytesUnnotified ≥ toSizeT s.avail then
    match sendWindowUpdate s.avail bytesUnnotified with
    | .error fault => .error fault
    | .ok (avail, increment) =>
      .ok ({ s with avail := avail, bytesUnnotified := 0 }, [increment])
  else .ok ({ s with bytesUnnotified := bytesUnnotified }, [])

-- ==== request bodies

/-- `h2o_http2_stream_reset`: the stream may have to wait for a write. -/
def streamReset (env : Env) (s : Stream) : Option Stream :=
  if env.closes then Option.none else some s

/-- The call of `write_req`. -/
def callWriteReq (env : Env) (s : Stream) : Option Stream :=
  let s := { s with entity := some s.buf }
  if env.writeFails then streamReset env s else some s

/-- `write_streaming_body`. -/
def writeStreamingBody (env : Env) (s : Stream) :
    Except Fault (Option Stream) :=
  if s.entity.isSome then .error .assertion
  else
    match s.state with
    | .openBeforeFirstFrame | .open =>
      if s.buf = 0 then .error .assertion else .ok (callWriteReq env s)
    | .closeQueued =>
      .ok (callWriteReq env
        { s with proceedReq := false, state := .closeDelivered })
    | _ => .error .fatal

/-- The check against the content-length. -/
def lengthMismatch (s : Stream) (isEndStream : Bool) : Bool :=
  match s.contentLength with
  | Option.none => false
  | some cl => if isEndStream then s.received ≠ cl else s.received > cl

/-- The body ends. -/
def endBody (s : Stream) : Stream :=
  if s.writeReq then { s with state := .closeQueued }
  else { s with proceedReq := false, state := .closeDelivered }

/-- `handle_request_body_chunk` of a stream in streaming mode, once the data
is in the buffer. -/
def handleStreamedChunk (env : Env) (s : Stream) :
    Except Fault (Option Stream) :=
  if s.writeReq then
    if s.entity.isNone then writeStreamingBody env s else .ok (some s)
  else .ok (some { s with entity := some s.buf })

/-- The same, not (yet) in streaming mode; `reqQueued` is whether
`proceed_req` was set before. -/
def handleBufferedChunk (cfg : Config) (env : Env) (s : Stream)
    (isFirst isEndStream reqQueued : Bool) :
    Except Fault (Option Stream × List Nat) :=
  let s := { s with entity := some s.buf }
  if isFirst && !isEndStream then
    if env.canStream then
      .ok (some { s with proceedReq := true, pending := true }, [])
    else (updateStreamInputWindow s cfg.grant).map fun r => (some r.1, r.2)
  else if isEndStream && !reqQueued then
    .ok (some { s with pending := true }, [])
  else .ok (some s, [])

/-- `handle_request_body_chunk`. -/
def handleRequestBodyChunk (cfg : Config) (env : Env) (s : Stream)
    (payload : Nat) (isEndStream : Bool) :
    Except Fault (Option Stream × List Nat) :=
  if s.state ≠ .openBeforeFirstFrame ∧ s.state ≠ .open then .error .fatal
  else
    let isFirst := decide (s.state = .openBeforeFirstFrame)
    let s := { s with state := .open, received := s.received + payload }
    if s.received > cfg.maxRequestEntitySize ∨ lengthMismatch s isEndStream ∨
      env.disregarded then
      .ok (streamReset env s, [])
    else
      let reqQueued := s.proceedReq
      let s := if isEndStream then endBody s else s
      let s := { s with buf := s.buf + payload }
      if s.streamed then (handleStreamedChunk env s).map fun r => (r, [])
      else handleBufferedChunk cfg env s isFirst isEndStream reqQueued

/-- `process_request`. -/
def processRequest (cfg : Config) (s : Stream) :
    Except Fault (Stream × List Nat) :=
  if s.proceedReq then
    if s.state = .none ∨ s.state = .closeDelivered then .error .assertion
    else updateStreamInputWindow { s with streamed := true } cfg.grant
  else .ok (s, [])

/-- `proceed_request` with an error. -/
def proceedRequestError (env : Env) (s : Stream) :
    Except Fault (Option Stream) :=
  if s.state = .closeDelivered then .error .assertion
  else .ok (streamReset env
    { s with proceedReq := false, state := .closeDelivered })

/-- `proceed_request`. The caller has seen that `proceed_req` is set. -/
def proceedRequest (env : Env) (s : Stream) (err : Bool) :
    Except Fault (Option Stream × List Nat) :=
  if !s.proceedReq || !s.streamed then .error .assertion
  else
    let written := s.entity.getD 0
    let s := { s with buf := s.buf - written, entity := Option.none }
    if err then (proceedRequestError env s).map fun r => (r, [])
    else
      match s.state with
      | .open =>
        match updateStreamInputWindow s written with
        | .error fault => .error fault
        | .ok (s, increments) =>
          if s.buf ≠ 0 then
            (writeStreamingBody env s).map fun r => (r, increments)
          else .ok (some s, increments)
      | .closeQueued =>
        if written = 0 then .error .assertion
        else (writeStreamingBody env s).map fun r => (r, [])
      | _ => .error .fatal

-- ==== connection

/-- `h2o_http2_conn_t`. -/
structure Conn where
  cfg : Config
  inputWindow : Int
  streams : Nat → Option Stream
  maxOpen : Nat
  emitted : List (Nat × Nat)
  arrived : Nat → Nat

/-- A new connection, after `enqueue_server_preface`. -/
def Conn.create (cfg : Config) : Conn where
  cfg := cfg
  inputWindow := connectionWindowSize
  streams := fun _ => Option.none
  maxOpen := 0
  emitted := [(0, connectionWindowSize - streamInitialWindowSize)]
  arrived := fun _ => 0

/-- The outcome for a stream. -/
def Conn.commit (c : Conn) (id : Nat) (r : Option Stream × List Nat) : Conn :=
  { c with
    streams := fun i => if i = id then r.1 else c.streams i
    emitted := c.emitted ++ r.2.map fun increment => (id, increment) }

/-- A DATA frame. -/
structure DataFrame where
  payload : Nat
  padding : Option UInt8
  endStream : Bool
deriving DecidableEq

/-- The length of the frame: the length octet and the padding are part of
it. -/
def DataFrame.length (frame : DataFrame) : Nat :=
  match frame.padding with
  | Option.none => frame.payload
  | some p => frame.payload + (1 + p.toNat)

/-- `handle_data_frame`, the window of the connection. -/
def Conn.consume (c : Conn) (id : Nat) (length : Nat) : Except Fault Conn :=
  let c := { c with
    inputWindow := c.inputWindow - length
    arrived := fun i => if i = id then c.arrived i + length else c.arrived i }
  if c.inputWindow ≤ ((connectionWindowSize / 2 : Nat) : Int) then
    match sendWindowUpdate c.inputWindow
        (toSizeT ((connectionWindowSize : Int) - c.inputWindow)) with
    | .error fault => .error fault
    | .ok (avail, increment) =>
      .ok { c with
        inputWindow := avail
        emitted := c.emitted ++ [(0, increment)] }
  else .ok c

/-- `handle_data_frame`, the part that follows for the stream. -/
def handleStreamData (cfg : Config) (env : Env) (s : Stream)
    (frame : DataFrame) : Except Fault (Option Stream × List Nat) :=
  if s.state ≠ .openBeforeFirstFrame ∧ s.state ≠ .open then
    .ok (streamReset env s, [])
  else
    let s := { s with avail := s.avail - frame.length }
    match if frame.length ≠ frame.payload then
        updateStreamInputWindow s (frame.length - frame.payload)
      else .ok (s, []) with
    | .error fault => .error fault
    | .ok (s, increments) =>
      if frame.payload ≠ 0 ∨ frame.endStream then
        (handleRequestBodyChunk cfg env s frame.payload
          frame.endStream).map fun r => (r.1, increments ++ r.2)
      else .ok (some s, increments)

/-- `handle_data_frame`. A frame on stream 0, or one that is too long, is an
error of the connection. -/
def Conn.handleDataFrame (c : Conn) (env : Env) (id : Nat)
    (frame : DataFrame) : Except Fault Conn :=
  if id = 0 ∨ frame.length > maxFrameSize then .ok c
  else
    match c.consume id frame.length with
    | .error fault => .error fault
    | .ok c =>
      match c.streams id with
      | Option.none => .ok c
      | some s => (handleStreamData c.cfg env s frame).map (c.commit id)

inductive Event where
  /-- A HEADERS frame opens a stream, with or without a body to follow
  (`handle_incoming_request`). -/
  | headers (id : Nat) (body : Bool) (contentLength : Option Nat)
  /-- The same for a request that is processed immediately: CONNECT, or with
  an expectation that is forwarded. -/
  | headersImmediate (id : Nat) (contentLength : Option Nat)
  | data (env : Env) (id : Nat) (frame : DataFrame)
  /-- `handle_trailing_headers`. -/
  | trailers (env : Env) (id : Nat)
  /-- `run_pending_requests` gets to a stream. -/
  | runPending (id : Nat)
  /-- The handler sets or clears `write_req`. -/
  | setWriteReq (id : Nat) (writeReq : Bool)
  /-- The application calls `proceed_req`. -/
  | proceedReq (env : Env) (id : Nat) (err : Bool)
  /-- The stream is closed. -/
  | close (id : Nat)
deriving DecidableEq

/-- A stream that a request opens. -/
def Conn.openStream (c : Conn) (id : Nat) (r : Stream × List Nat) : Conn :=
  { c with maxOpen := id }.commit id (some r.1, r.2)

/-- The stream of `ProcessImmediately`. -/
def Stream.immediate (contentLength : Option Nat) : Stream :=
  { Stream.create .open contentLength with
    entity := some 0
    proceedReq := true }

def Conn.step (c : Conn) (e : Event) : Except Fault Conn :=
  match e with
  | .headers id body contentLength =>
    if id % 2 = 0 ∨ id ≤ c.maxOpen then .ok c
    else if body then
      .ok (c.openStream id (.create .openBeforeFirstFrame contentLength, []))
    else
      .ok (c.openStream id
        ({ Stream.create .none contentLength with pending := true }, []))
  | .headersImmediate id contentLength =>
    if id % 2 = 0 ∨ id ≤ c.maxOpen then .ok c
    else
      (processRequest c.cfg (.immediate contentLength)).map (c.openStream id)
  | .data env id frame => c.handleDataFrame env id frame
  | .trailers env id =>
    match c.streams id with
    | Option.none => .ok c
    | some s =>
      if s.state ≠ .openBeforeFirstFrame ∧ s.state ≠ .open then .ok c
      else (handleRequestBodyChunk c.cfg env s 0 true).map (c.commit id)
  | .runPending id =>
    match c.streams id with
    | Option.none => .ok c
    | some s =>
      if s.pending then
        (processRequest c.cfg { s with pending := false }).map fun r =>
          c.commit id (some r.1, r.2)
      else .ok c
  | .setWriteReq id writeReq =>
    match c.streams id with
    | Option.none => .ok c
    | some s => .ok (c.commit id (some { s with writeReq := writeReq }, []))
  | .proceedReq env id err =>
    match c.streams id with
    | Option.none => .error .assertion
    | some s => (proceedRequest env s err).map (c.commit id)
  | .close id => .ok (c.commit id (Option.none, []))

end H2o.Http2Server
