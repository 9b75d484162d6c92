/-
Streams of the HTTP/2 client (`lib/common/http2client.c`): registration, the
ways a stream is closed, the calls into the application, and the two functions
that take a header block, `on_head` and `on_trailers`.

A function that fails an assertion yields a `Fault`. The functions that handle
a frame yield the error of the connection, if any, beside its state.
-/
import H2o.Http2Client.State

namespace H2o.Http2Client

open Http2 Hpack

/-- `enqueue_window_update` on a window of which `avail` is left: the new
connection and window. The comparison is one of unsigned integers, and the
increment is cut to 32 bits. -/
def enqueueWindowUpdate (c : Conn) (streamId : Nat) (avail : Int)
    (desired : Nat) : Except Fault (Conn × Int) :=
  if desired > int32Max then .error .desiredTooLarge
  else if avail * 2 % 2 ^ 64 < desired then
    let delta := ((desired : Int) - avail).bmod (2 ^ 32)
    let c := requestWrite (c.emit (.windowUpdate streamId delta))
    .ok (c, (windowUpdate avail delta).getD avail)
  else .ok (c, avail)

/-- `stream_send_error`. -/
def streamSendError (c : Conn) (streamId : Nat) (code : ErrorCode) :
    Except Fault Conn :=
  if streamId = 0 then .error .streamIdZero
  else if c.state = .isClosing then .error .sendErrorWhileClosing
  else .ok (requestWrite (c.emit (.rstStream streamId code)))

/-- The id `register_stream` gives to a stream. -/
def Conn.nextStreamId (c : Conn) : Nat :=
  (if c.maxOpenStreamId = 0 then 1 else c.maxOpenStreamId + 2) % 2 ^ 32

/-- `register_stream`. -/
def registerStream (c : Conn) (s : Stream) : Conn :=
  { c with
    maxOpenStreamId := s.streamId
    streams := c.streams.filter (fun t => t.streamId != s.streamId) ++ [s]
    numStreams := c.numStreams + 1
    keepaliveTimeout := false }

/-- `kh_del`, and the count of streams. -/
def Conn.removeStream (c : Conn) (streamId : Nat) : Conn :=
  { c with
    streams := c.streams.filter fun s => s.streamId != streamId
    numStreams := c.numStreams - 1 }

/-- The timer of a connection without streams. -/
def linkKeepaliveTimeout (c : Conn) : Except Fault Conn :=
  if c.numStreams = 0 then
    if c.keepaliveTimeout then .error .timerLinked
    else .ok { c with keepaliveTimeout := true }
  else .ok c

/-- `unregister_stream`. -/
def unregisterStream (c : Conn) (streamId : Nat) : Except Fault Conn :=
  if (c.getStream streamId).isNone then .error .notRegistered
  else linkKeepaliveTimeout (c.removeStream streamId)

/-- `h2o_linklist_unlink` of `output.sending_link`. -/
def Conn.unlinkSending (c : Conn) (streamId : Nat) : Conn :=
  { c with
    sending := c.sending.filter (· != streamId)
    sent := c.sent.filter (· != streamId) }

/-- `close_stream`. -/
def closeStream (c : Conn) (streamId : Nat) : Except Fault Conn := do
  let c ← unregisterStream c streamId
  .ok ((c.unlinkSending streamId).log (.closed streamId))

/-- `close_response`. -/
def closeResponse (c : Conn) (streamId : Nat) : Except Fault Conn :=
  match c.getStream streamId with
  | none => .error .notRegistered
  | some s =>
    if s.res = .closed then .error .responseClosed
    else
      let c := c.setStream streamId fun s => { s with res := .closed }
      if s.req = .closed then closeStream c streamId else .ok c

/-- `call_callback_with_error`. -/
def callCallbackWithError (c : Conn) (streamId : Nat) (err : Errstr) :
    Except Fault Conn :=
  match c.getStream streamId with
  | none => .error .notRegistered
  | some s =>
    let told := c.setStream streamId fun s => { s with told := true }
    match s.res with
    | .head => .ok (told.log (.onHead streamId (some err) 0 []))
    | .body => .ok (told.log (.onBody streamId (some err) [] []))
    | .closed =>
      -- also while a write is in flight
      if s.proceedReq then
        .ok ((told.setStream streamId fun s =>
          { s with proceedReq := false }).log (.proceed streamId (some err)))
      else .ok c

/-- `call_stream_callbacks_with_error`. -/
def callStreamCallbacksWithError (c : Conn) (err : Errstr) :
    Except Fault Conn :=
  (c.streams.map (·.streamId)).foldlM (fun c streamId =>
    callCallbackWithError c streamId err) c

/-- `extract_content_length`: `none` in place of `SIZE_MAX`, or the
description of an error. -/
def extractContentLength : List Field → Option Nat → Except String (Option Nat)
  | [], contentLength => .ok contentLength
  | (name, value) :: headers, contentLength =>
    if name = .token .contentLength then
      if contentLength ≠ none then .error "duplicate content-length"
      else
        match strtosize value with
        | none => .error "malformed content-length"
        | some n => extractContentLength headers (some n)
    else extractContentLength headers contentLength

/-- What the application and the environment answer while a frame is
handled. -/
structure Answers where
  /-- `informational_cb` returns a value other than zero. -/
  informational : Bool
  /-- `on_head` returns a callback for the body. -/
  onHead : Bool
  /-- `on_body` returns a value other than zero. -/
  onBody : Bool
  /-- What the application takes out of the buffer in `on_body`. -/
  consumed : Nat
  /-- See `bufferWindow`. -/
  room : Nat

/-- The label `SendRSTStream` of `on_head` and `on_trailers`. -/
def sendRstStream (c : Conn) (streamId : Nat) (code : ErrorCode) :
    Except Fault Conn := do
  let c ← streamSendError c streamId code
  closeStream c streamId

/-- The label `Failed` of `on_head` and `on_trailers`. -/
def failStream (c : Conn) (streamId : Nat) : Except Fault Conn := do
  let c ← callCallbackWithError c streamId .protocolViolation
  sendRstStream c streamId .protocol

/-- The application gives up the stream. -/
def giveUp (c : Conn) (streamId : Nat) (code : ErrorCode) :
    Except Fault Conn :=
  sendRstStream (c.log (.cancelled streamId)) streamId code

/-- `on_head` on a response of status 1xx. -/
def onInformational (c : Conn) (s : Stream) (p : Parsed) (ans : Answers) :
    Except Fault Conn :=
  if p.status = 101 then failStream c s.streamId
  else if p.status = 100 ∧ s.sendOwnExpect then
    let c := c.setStream s.streamId fun s =>
      { s with status := 0, sendOwnExpect := false }
    if s.outBuf.isSome ∧ c.isSendingLinked s.streamId = false then do
      let c ← c.insertSending s.streamId
      .ok (requestWrite c)
    else .ok c
  else if s.informationalCb then
    let c := c.log (.informational s.streamId p.status p.headers)
    if ans.informational then giveUp c s.streamId .internal else .ok c
  else .ok c

/-- `on_head` on the final response. -/
def onFinalHead (c : Conn) (s : Stream) (p : Parsed) (isEndStream : Bool)
    (ans : Answers) : Except Fault Conn :=
  match extractContentLength p.headers none with
  | .error _ => failStream c s.streamId
  | .ok remaining =>
    let c := c.setStream s.streamId fun s =>
      { s with
        remaining
        messageBodyForbidden :=
          s.messageBodyForbidden || (p.status == 204 || p.status == 304) }
    let err := if isEndStream then some Errstr.isEos else none
    let c := c.log (.onHead s.streamId err p.status p.headers)
    if isEndStream then closeResponse c s.streamId
    else if ans.onHead = false then giveUp c s.streamId .cancel
    else .ok (c.setStream s.streamId fun s => { s with res := .body })

/-- `on_head` on a block that was read. -/
def onHeadParsed (c : Conn) (s : Stream) (p : Parsed) (isEndStream : Bool)
    (ans : Answers) : Except Fault Conn :=
  let c := c.setStream s.streamId fun s =>
    { s with status := p.status, headers := p.headers }
  if p.errDesc.isSome then failStream c s.streamId
  else if 100 ≤ p.status ∧ p.status ≤ 199 then onInformational c s p ans
  else onFinalHead c s p isEndStream ans

/-- `on_head`. -/
def onHead (c : Conn) (stream : Option Stream) (src : Bytes)
    (isEndStream : Bool) (ans : Answers) :
    Except Fault (Conn × Option ConnError) :=
  match stream with
  | none =>
    match parseResponse c.inTable false [] src with
    | .error e => .ok (c, some e)
    | .ok (t, p) =>
      if p.errDesc.isSome then .error .nullStream
      else .ok ({ c with inTable := t }, none)
  | some s =>
    let c := c.log (.block s.streamId c.inTable src)
    match parseResponse c.inTable false s.headers src with
    | .error e => .ok (c, some e)
    | .ok (t, p) => do
        let c ← onHeadParsed { c with inTable := t } s p isEndStream ans
        .ok (c, none)

/-- `on_trailers` on a block that was read. -/
def onTrailersParsed (c : Conn) (s : Stream) (p : Parsed) (ans : Answers) :
    Except Fault Conn :=
  if p.errDesc.isSome then failStream c s.streamId
  else
    let c := c.log (.onBody s.streamId (some .isEos) [] p.headers)
    if ans.onBody then sendRstStream c s.streamId .internal
    else closeResponse c s.streamId

/-- `on_trailers`. -/
def onTrailers (c : Conn) (s : Stream) (src : Bytes) (ans : Answers) :
    Except Fault (Conn × Option ConnError) :=
  if s.res ≠ .body then .error .notInBody
  else
    let c := c.log (.block s.streamId c.inTable src)
    match parseResponse c.inTable true [] src with
    | .error e => .ok (c, some e)
    | .ok (t, p) => do
        let c ← onTrailersParsed { c with inTable := t } s p ans
        .ok (c, none)

/-- `do_update_window`. -/
def doUpdateWindow (c : Conn) (streamId : Nat) : Except Fault Conn :=
  match c.getStream streamId with
  | none => .error .notRegistered
  | some s =>
    let max := c.ctx.getMaxBufferSize
    if s.bodySize > max then .error .bodyTooLarge
    else do
      let (c, inWindow) ←
        enqueueWindowUpdate c streamId s.inWindow (max - s.bodySize)
      .ok (c.setStream streamId fun s => { s with inWindow })

end H2o.Http2Client
