/-
Requests and responses of the HTTP/2 server, as far as they act on the streams
(`lib/http2/connection.c`, `lib/http2/stream.c`).

# Calls

The application is given requests, takes their bodies and sends responses; the
socket completes writes; timers fire. What they call here is a `Call`. The
loops of `run_pending_requests`, `h2o_http2_scheduler_run` and
`on_write_complete` are taken apart: a call is one round, and whether there is
one, and for which stream, is decided elsewhere. What a function does after a
callback into the application has returned does not depend on what was called
meanwhile, so that these calls follow the function.
-/
import H2o.Http2Conn.State

namespace H2o.Http2Conn

namespace Conn

-- ==== request bodies

/-- `write_streaming_body`, after the check of the state. -/
def callWriteReq (c : Conn) (env : Env) (id : Nat) : Except Fault Conn := do
  let s ← c.stream id
  let s := { s with entity := some s.bufSize }
  let c := c.put s
  if env.writeFails then
    let c ← c.streamSendError id streamClosed
    c.streamReset id
  -- close the stream if both sides are done
  else if s.body = .closeDelivered ∧ s.state = .endStream then c.streamClose id
  else .ok c

/-- `write_streaming_body`. -/
def writeStreamingBody (c : Conn) (env : Env) (id : Nat) :
    Except Fault Conn := do
  let s ← c.stream id
  if s.entity.isSome then .error .assertion
  else
    match s.body with
    | .openBeforeFirstFrame | .open =>
      if s.bufSize = 0 then .error .assertion else c.callWriteReq env id
    | .closeQueued =>
      let c ← (c.put { s with proceedReq := false }).setReqBodyState id
        .closeDelivered
      c.callWriteReq env id
    | .none | .closeDelivered => .error .fatal

/-- `execute_or_enqueue_request`. The requests that can be run are run by the
calls that follow. -/
def executeOrEnqueueRequest (c : Conn) (id : Nat) : Except Fault Conn := do
  let s ← c.stream id
  if s.state ≠ .recvHeaders ∧ s.state ≠ .reqPending then .error .assertion
  else if c.disregarded id then c.streamReset id
  else
    let c ← c.setState id .reqPending
    let c ←
      (if s.blockedByServer then .ok c else c.setBlockedByServer id true)
    c.linkPending id

/-- The body ends. -/
def endBody (c : Conn) (id : Nat) : Except Fault Conn := do
  let s ← c.stream id
  let c ←
    (if s.state.rank < StreamState.reqPending.rank then do
      let c ← c.setState id .reqPending
      if s.processCalled then c.setState id .sendHeaders else .ok c
    else .ok c)
  if s.writeReq then c.setReqBodyState id .closeQueued
  else
    let s ← c.stream id
    (c.put { s with proceedReq := false }).setReqBodyState id .closeDelivered

/-- The check against the content-length. -/
def lengthMismatch (s : Stream) (isEndStream : Bool) : Bool :=
  match s.contentLength with
  | none => false
  | some cl => if isEndStream then s.received ≠ cl else s.received > cl

/-- `handle_request_body_chunk`, once the data is in the buffer; `reqQueued` is
whether `proceed_req` was set before. -/
def deliverChunk (c : Conn) (env : Env) (id : Nat)
    (isFirst isEndStream reqQueued : Bool) : Except Fault Conn := do
  let s ← c.stream id
  if s.streamed then
    if s.writeReq then
      if s.entity.isNone then c.writeStreamingBody env id else .ok c
    else .ok (c.put { s with entity := some s.bufSize })
  else
    let s := { s with entity := some s.bufSize }
    if isFirst && !isEndStream && env.canStream then
      (c.put { s with proceedReq := true }).linkPending id
    else
      let c := c.put s
      if isEndStream && !reqQueued then c.executeOrEnqueueRequest id
      else .ok c

/-- `handle_request_body_chunk`. -/
def handleRequestBodyChunk (c : Conn) (env : Env) (id : Nat) (payload : Nat)
    (isEndStream : Bool) : Except Fault Conn := do
  let s ← c.stream id
  if s.body ≠ .openBeforeFirstFrame ∧ s.body ≠ .open then .error .fatal
  else
    let isFirst := decide (s.body = .openBeforeFirstFrame)
    let c ← (if isFirst then c.setReqBodyState id .open else .ok c)
    let s ← c.stream id
    let s := { s with received := s.received + payload }
    let c := c.put s
    if s.received > c.cfg.maxRequestEntitySize then
      let c ← c.streamSendError id (value .refusedStream)
      c.streamReset id
    else if lengthMismatch s isEndStream then
      let c ← c.streamSendError id (value .protocol)
      c.streamReset id
    else
      let c ←
        (if s.blockedByServer then .ok c else c.setBlockedByServer id true)
      if c.disregarded id then c.streamReset id
      else
        let c ← (if isEndStream then c.endBody id else .ok c)
        let s' ← c.stream id
        (c.put { s' with bufSize := s'.bufSize + payload }).deliverChunk env id
          isFirst isEndStream s.proceedReq

/-- `process_request`. -/
def processRequest (c : Conn) (id : Nat) : Except Fault Conn := do
  let s ← c.stream id
  let c ←
    (if s.proceedReq then
      if s.body = .none ∨ s.body = .closeDelivered then .error .assertion
      else
        .ok { c.put { s with streamed := true } with
          reqStreaming := c.reqStreaming + 1
          tunnel := if s.isTunnel then c.tunnel + 1 else c.tunnel }
    else if s.state.rank < StreamState.sendHeaders.rank then do
      let c ← c.setState id .reqPending
      c.setState id .sendHeaders
    else .ok c)
  let c :=
    if Stream.isPush id then c
    else { c with pullMaxProcessed := max c.pullMaxProcessed id }
  let s ← c.stream id
  .ok (c.put { s with processCalled := true })

/-- `can_run_requests`. -/
def canRunRequests (c : Conn) : Bool :=
  (c.pull.halfClosed + c.push.halfClosed).toNat < c.cfg.maxConcurrentRequests

/-- One round of `run_pending_requests`. -/
def runPendingRequest (c : Conn) (id : Nat) : Except Fault Conn := do
  if id ∉ c.pendingReqs ∨ c.canRunRequests = false then .ok c
  else
    let s ← c.stream id
    if s.proceedReq ∧ (c.reqStreaming - c.tunnel).toNat ≥
        c.cfg.maxConcurrentStreamingRequests then .ok c
    else (c.unlink id).processRequest id

/-- The error `proceed_request` is called with. -/
inductive ProceedError where
  /-- `h2o_httpclient_error_is_eos`. -/
  | eos
  | other
deriving DecidableEq

/-- `proceed_request` with an error. -/
def proceedRequestError (c : Conn) (id : Nat) (err : ProceedError) :
    Except Fault Conn := do
  let s ← c.stream id
  let c ← (c.put { s with proceedReq := false }).setReqBodyState id
    .closeDelivered
  if c.state = .isClosing then .ok c
  else if err = .eos ∧ s.state ≠ .endStream then
    let s ← c.stream id
    .ok (c.put { s with delayedRst := true })
  else
    let c ← c.streamSendError id (if err = .eos then value .none
        else streamClosed)
    let c ← (if c.isLinked id then .ok c else c.linkProceed id)
    c.streamReset id

/-- `proceed_request`. -/
def proceedRequest (c : Conn) (env : Env) (id : Nat)
    (err : Option ProceedError) : Except Fault Conn := do
  let s ← c.stream id
  if s.streamed = false then .error .assertion
  else
    let written := s.entity.getD 0
    let c := c.put { s with bufSize := s.bufSize - written, entity := none }
    match err with
    | some err => c.proceedRequestError id err
    | none =>
      match s.body with
      | .open => do
          let c ←
            (if s.blockedByServer ∧ env.windowLeft then
              c.setBlockedByServer id false
            else .ok c)
          if s.bufSize - written ≠ 0 then c.writeStreamingBody env id
          else .ok c
      | .closeQueued =>
        if written = 0 then .error .assertion
        else c.writeStreamingBody env id
      | .none | .openBeforeFirstFrame | .closeDelivered => .error .fatal

-- ==== responses

/-- `request_write_and_close`. -/
def requestWriteAndClose (c : Conn) (id : Nat) : Except Fault Conn := do
  let c ← c.setState id .endStream
  if c.isLinked id then .ok c else c.linkProceed id

/-- `CancelPush` of `send_headers`. -/
def cancelPush (c : Conn) (id : Nat) : Except Fault Conn := do
  let c ← c.setState id .endStream
  let c ← c.linkProceed id
  let s ← c.stream id
  .ok (if s.promiseSent then c.encodeRstStream id (value .internal) else c)

/-- `h2o_http2_conn_register_for_proceed_callback`. -/
def registerForProceedCallback (c : Conn) (id : Nat) : Except Fault Conn := do
  let s ← c.stream id
  if s.data ∨ StreamState.sendBodyIsFinal.rank ≤ s.state.rank then
    if s.outputWindow > 0 ∧ c.isLinked id then .error .assertion else .ok c
  else c.linkProceed id

/-- `finalostream_send`, once the headers have been sent. -/
def sendBody (c : Conn) (id : Nat) (hasData emptyAllowed : Bool)
    (sendState : SendState) : Except Fault Conn := do
  let c ←
    (if sendState ≠ .inProgress then c.setState id .sendBodyIsFinal else .ok c)
  let s ← c.stream id
  if emptyAllowed = false ∧ hasData = false then .error .assertion
  else (c.put { s with data := hasData }).registerForProceedCallback id

/-- What becomes of the headers of a response. -/
inductive Headers where
  | sent
  /-- `upstream_refused`. -/
  | refused
  /-- A push is cancelled. -/
  | cancelled
deriving DecidableEq

/-- `finalostream_send` of a stream whose headers have not been sent. -/
def sendHeaders (c : Conn) (id : Nat) (headers : Headers)
    (hasBufs hasData : Bool) (sendState : SendState) : Except Fault Conn :=
  match headers with
  -- `send_refused_stream`
  | .refused =>
    (c.encodeRstStream id (value .refusedStream)).requestWriteAndClose id
  | .cancelled => c.cancelPush id
  | .sent => do
      let s ← c.stream id
      let c ← (c.put { s with
        promiseSent := s.promiseSent || Stream.isPush id }).setState id
          .sendBody
      if sendState = .final ∧ hasBufs = false then c.requestWriteAndClose id
      else c.sendBody id hasData true sendState

/-- `finalostream_send`; `hasBufs` is that `bufcnt` is not zero, `hasData` that
one of the buffers is not empty. -/
def finalostreamSend (c : Conn) (id : Nat) (headers : Headers)
    (hasBufs hasData : Bool) (sendState : SendState) : Except Fault Conn := do
  let s ← c.stream id
  if s.sendState ≠ .inProgress ∨ s.data then .error .assertion
  else
    let c ←
      (if s.blockedByServer then c.setBlockedByServer id false else .ok c)
    let s ← c.stream id
    let c := c.put { s with sendState := sendState }
    match s.state with
    | .recvBody => do
        let c ← c.setState id .reqPending
        let c ← c.setState id .sendHeaders
        c.sendHeaders id headers hasBufs hasData sendState
    | .reqPending => do
        let c ← c.setState id .sendHeaders
        c.sendHeaders id headers hasBufs hasData sendState
    | .sendHeaders => c.sendHeaders id headers hasBufs hasData sendState
    | .sendBody =>
      c.sendBody id hasData (decide (sendState ≠ .inProgress)) sendState
    | .endStream => .ok c
    | .idle | .recvHeaders | .sendBodyIsFinal => .error .assertion

/-- How far `send_data` gets. -/
inductive Sent where
  /-- A callback fails. -/
  | failed
  | part
  /-- `refused` is `upstream_refused`. -/
  | all (refused : Bool)
deriving DecidableEq

/-- `h2o_http2_stream_send_pending_data`: `payload` octets are sent. -/
def sendPendingData (c : Conn) (id payload : Nat) (sent : Sent) :
    Except Fault Conn := do
  let s ← c.stream id
  match sent with
  | .failed =>
    let c := c.encodeRstStream id (value .internal)
    (c.put { s with
      data := false, sendState := .error }).setState id .endStream
  | .part =>
    .ok { c.put { s with outputWindow := s.outputWindow - payload } with
      writeWindow := c.writeWindow - payload }
  | .all refused =>
    let c :=
      { c.put
        { s with data := false, outputWindow := s.outputWindow - payload } with
      writeWindow := c.writeWindow - payload }
    -- `commit_data_header`
    let c :=
      if s.sendState = .error then
        c.encodeRstStream id (if refused then value .refusedStream
          else value .protocol)
      else c
    if s.state = .sendBodyIsFinal then c.setState id .endStream else .ok c

/-- `emit_writereq_of_openref`. Nothing is sent if it would be more than the
windows and the size of a frame allow. -/
def emitWritereq (c : Conn) (id payload : Nat) (sent : Sent) :
    Except Fault Conn := do
  let s ← c.stream id
  if s.data = false ∧ s.state.rank < StreamState.sendBodyIsFinal.rank then
    .error .assertion
  else
    let c ←
      (if s.outputWindow ≤ 0 ∨ (payload : Int) > s.outputWindow ∨
        (payload : Int) > c.writeWindow ∨
          payload > c.peerSettings.maxFrameSize.toNat then .ok c
      else c.sendPendingData id payload sent)
    let s ← c.stream id
    if s.data ∨ s.state = .sendBodyIsFinal then .ok c else c.linkProceed id

/-- `h2o_http2_stream_proceed`. -/
def streamProceed (c : Conn) (id : Nat) : Except Fault Conn := do
  let s ← c.stream id
  if s.state = .endStream then
    if s.body = .none ∨ s.body = .closeDelivered then c.streamClose id
    else .ok c
  else if s.blockedByServer then .ok c
  else c.setBlockedByServer id true

/-- One round of `on_write_complete`. -/
def proceedStream (c : Conn) : Except Fault Conn :=
  match c.streamsToProceed with
  | [] => .ok c
  | id :: _ => do
      if c.state = .isClosing then .ok c
      else
        let s ← c.stream id
        if s.data then .error .assertion
        else
          let c := c.unlink id
          let c ←
            (if s.state = .endStream ∧ s.delayedRst then
              (c.put { s with delayedRst := false }).streamSendError id
              (value .none)
            else .ok c)
          c.streamProceed id

/-- `push_path`, when there is something to push. -/
def pushPath (c : Conn) : Except Fault Conn := do
  if c.state = .isClosing ∨ c.pushMaxOpen ≥ 0x7ffffff0 then .ok c
  else
    let id := c.pushMaxOpen + 2
    let c ← (c.streamOpen id).prepareForRequest id
    let c ← c.executeOrEnqueueRequest id
    let s ← c.stream id
    .ok (if s.state = .endStream then c
      else c.put { s with promiseSent := true })

-- ==== timers

/-- `initiate_graceful_shutdown`. -/
def initiateGracefulShutdown (c : Conn) : Conn :=
  if c.state = .open then
    { c with out := c.out ++ [.goaway 0x7fffffff (wireCode (value .none))] }
  else c

/-- `graceful_shutdown_resend_goaway`. -/
def resendGoaway (c : Conn) : Conn :=
  if c.state = .open then c.enqueueGoaway (value .none) else c

/-- `on_idle_timeout`. -/
def onIdleTimeout (c : Conn) : Conn :=
  (c.enqueueGoaway (value .none)).closeConnection

end Conn

-- ==== calls

inductive Call where
  | runPendingRequest (id : Nat)
  /-- The handler sets or clears `write_req`. -/
  | setWriteReq (id : Nat) (writeReq : Bool)
  | proceedRequest (env : Env) (id : Nat) (err : Option Conn.ProceedError)
  | finalostreamSend (id : Nat) (headers : Conn.Headers)
      (hasBufs hasData : Bool) (sendState : SendState)
  | emitWritereq (id payload : Nat) (sent : Conn.Sent)
  | proceedStream
  | pushPath
  | gracefulShutdown
  | resendGoaway
  | idleTimeout
  /-- The connection is closed by an error of the socket, or because all
  streams of a connection that is shutting down have ended. -/
  | close
deriving DecidableEq

def Conn.call (c : Conn) : Call → Except Fault Conn
  | .runPendingRequest id => c.runPendingRequest id
  | .setWriteReq id writeReq => do
      let s ← c.stream id
      .ok (c.put { s with writeReq := writeReq })
  | .proceedRequest env id err => c.proceedRequest env id err
  | .finalostreamSend id headers hasBufs hasData sendState =>
    c.finalostreamSend id headers hasBufs hasData sendState
  | .emitWritereq id payload sent => c.emitWritereq id payload sent
  | .proceedStream => c.proceedStream
  | .pushPath => c.pushPath
  | .gracefulShutdown => .ok c.initiateGracefulShutdown
  | .resendGoaway => .ok c.resendGoaway
  | .idleTimeout => .ok c.onIdleTimeout
  | .close => .ok c.closeConnection

end H2o.Http2Conn
