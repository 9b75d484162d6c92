/-
What the functions that act on the streams leave as it is.

A predicate that looks at the error codes that have been sent, at what is read
next and at the state of the connection (`Sees`) stays true, if codes of the
specification and the end of the connection do no harm to it (`Kept`): the
functions do nothing else to these. There is one lemma for each of them,
in the order of `H2o.Http2Conn.State`, `H2o.Http2Conn.Response` and
`H2o.Http2Conn.Receive`; each follows the text of its function.
-/
import H2o.Http2Conn.Receive
import H2o.Lib.Ensures

namespace H2o.Http2Conn

open Hpack Lib

variable {errnum : Int}

variable {Q : List ErrorFrame → Expect → ConnState → Prop} {c : Conn}
  {id : Nat}

/-- A predicate on the error codes that have been sent, on what is read next
and on the state of the connection. -/
def Sees (Q : List ErrorFrame → Expect → ConnState → Prop) (c : Conn) : Prop :=
  Q c.out c.readExpect c.state

/-- Codes of the specification do no harm to it, nor does the end of the
connection. -/
structure Kept (Q : List ErrorFrame → Expect → ConnState → Prop) : Prop where
  send : ∀ {out expect state} {f : ErrorFrame}, f.code ≤ 13 →
    Q out expect state → Q (out ++ [f]) expect state
  shutdown : ∀ {out expect state}, state ≠ .isClosing →
    Q out expect state → Q out expect .halfClosed
  close : ∀ {out expect state}, Q out expect state → Q out expect .isClosing

/-- A code of the specification, negated. -/
def CodeOk (code : Int) : Prop := -13 ≤ code ∧ code ≤ 0

instance (code : Int) : Decidable (CodeOk code) :=
  inferInstanceAs (Decidable (_ ∧ _))

/-- Such a code goes on the wire as one of 0 to 13. -/
theorem wireCode_le (h : CodeOk errnum) : wireCode errnum ≤ 13 := by
  obtain ⟨hlow, hhigh⟩ := h
  unfold wireCode
  omega

section

variable (h : Sees Q c)
include h

/-- The streams are not seen. -/
theorem sees_put (s : Stream) : Sees Q (c.put s) := h

-- ==== stream states

theorem keeps_count (s : Stream) (f : NumStreams → NumStreams) :
    Ensures (Sees Q) (c.count s f) := by
  unfold Conn.count
  split
  · exact .error _
  next slot _ =>
    refine .ok ?_
    cases slot <;> exact h

theorem keeps_linkPending : Ensures (Sees Q) (c.linkPending id) :=
  .ite (.error _) (.ok h)

theorem keeps_linkProceed : Ensures (Sees Q) (c.linkProceed id) :=
  .ite (.error _) (.ok h)

theorem keeps_setBlockedByServer (on : Bool) :
    Ensures (Sees Q) (c.setBlockedByServer id on) :=
  .bind_any fun _ => .ite (.error _) (.ok h)

/-- A new state moves the stream from count to count. -/
theorem keeps_setState (new : StreamState) :
    Ensures (Sees Q) (c.setState id new) := by
  refine .bind_any fun s => ?_
  cases new with
  | idle => exact .error _
  | recvHeaders =>
    refine .ite (.error _) (.bind (keeps_count h _ _) fun c h => ?_)
    exact .bind (keeps_count h _ _) fun c h => .ok h
  | recvBody => exact .ok h
  | reqPending => exact .ok h
  | sendHeaders =>
    exact .ite (.error _) (.bind (keeps_count h _ _) fun c h => .ok h)
  | sendBody =>
    exact .ite (.error _) (.bind (keeps_count h _ _) fun c h => .ok h)
  | sendBodyIsFinal => exact .ite (.error _) (.ok h)
  | endStream =>
    refine .ite (.error _) (.bind (keeps_count h _ _) fun c h => ?_)
    exact .ite (keeps_setBlockedByServer (sees_put h _) _) (.ok h)

theorem keeps_setReqBodyState (new : ReqBodyState) :
    Ensures (Sees Q) (c.setReqBodyState id new) := by
  refine .bind_any fun s => .ite (.error _) (.ite (.error _) ?_)
  refine .ite (.ite (.error _) (.ok ?_)) (.ok h)
  split <;> exact h

theorem keeps_unlinkClosed (s : Stream) :
    Ensures (Sees Q) (c.unlinkClosed s) := by
  unfold Conn.unlinkClosed
  split
  · exact .ite (.error _) (.ok h)
  · exact .ite (.error _) (.ok h)
  · exact .ite (.ok h) (.error _)
  all_goals exact .ok h

/-- A stream ends without a frame of its own. -/
theorem keeps_streamClose : Ensures (Sees Q) (c.streamClose id) := by
  refine .bind (.bind_any fun _ =>
    .ite (keeps_setReqBodyState (sees_put h _) _) (.ok h)) fun c h =>
      .bind_any fun s => ?_
  refine .bind (.ite (keeps_setBlockedByServer h _) (.ok h)) fun c h => ?_
  refine .bind (keeps_unlinkClosed h s) fun c h => ?_
  exact .bind (.ite (.ok h) (keeps_setState h _)) fun c h => .ok h

/-- Nor is one sent here for a stream that is reset. -/
theorem keeps_streamReset : Ensures (Sees Q) (c.streamReset id) := by
  refine .bind_any fun s => .ite (keeps_streamClose h) ?_
  refine .bind (.ite (.ok h) (keeps_setState h _)) fun c h => ?_
  exact .bind_any fun s => .ite (.ok h) (keeps_streamClose h)

theorem keeps_prepareForRequest :
    Ensures (Sees Q) (c.prepareForRequest id) := by
  refine .ite (.error _) (.bind (P := Sees Q) (keeps_setState ?_ _) fun c h =>
    ?_)
  · split
    · exact h
    · split <;> exact h
  · exact .bind_any fun s => .ok h

end

-- ==== frames

section

variable (hQ : Kept Q) (h : Sees Q c)
include hQ h

/-- An RST_STREAM frame is one more code sent. -/
theorem sees_encodeRstStream (hcode : CodeOk errnum) :
    Sees Q (c.encodeRstStream id errnum) :=
  hQ.send (wireCode_le hcode) h

/-- A GOAWAY frame is one more code, and half closes. -/
theorem sees_enqueueGoaway (hcode : CodeOk errnum) :
    Sees Q (c.enqueueGoaway errnum) := by
  unfold Conn.enqueueGoaway
  split
  · exact h
  next hopen => exact hQ.send (wireCode_le hcode) (hQ.shutdown hopen h)

theorem sees_closeConnection : Sees Q c.closeConnection :=
  hQ.close h

theorem keeps_streamSendError (hcode : CodeOk errnum) :
    Ensures (Sees Q) (c.streamSendError id errnum) :=
  .ite (.error _) (.ok (sees_encodeRstStream hQ h hcode))

/-- The frame first, then the stream ends. -/
theorem keeps_sendRstStream (hcode : CodeOk errnum) :
    Ensures (Sees Q) (c.sendRstStream id errnum) :=
  .bind (keeps_streamSendError hQ h hcode) fun _ h => keeps_streamReset h

end

-- ==== request bodies

variable {env : Env}

section

variable (h : Sees Q c)
include h

/-- A `write_req` that fails resets the stream, or closes it. -/
theorem keeps_callWriteReq (hQ : Kept Q) :
    Ensures (Sees Q) (c.callWriteReq env id) := by
  refine .bind_any fun s => .ite ?_ (.ite ?_ (.ok h))
  · exact keeps_sendRstStream hQ (sees_put h _)
      (by decide : CodeOk streamClosed)
  · exact keeps_streamClose (sees_put h _)

/-- Whatever the state of the body is, it comes to `write_req`. -/
theorem keeps_writeStreamingBody (hQ : Kept Q) :
    Ensures (Sees Q) (c.writeStreamingBody env id) := by
  refine .bind_any fun s => .ite (.error _) ?_
  split
  · exact .ite (.error _) (keeps_callWriteReq h hQ)
  · exact .ite (.error _) (keeps_callWriteReq h hQ)
  · exact .bind (keeps_setReqBodyState (sees_put h _) _) fun c h =>
      keeps_callWriteReq h hQ
  · exact .error _
  · exact .error _

theorem keeps_executeOrEnqueueRequest :
    Ensures (Sees Q) (c.executeOrEnqueueRequest id) := by
  refine .bind_any fun s => .ite (.error _) (.ite (keeps_streamReset h) ?_)
  refine .bind (keeps_setState h _) fun c h => ?_
  refine .bind (.ite (.ok h) (keeps_setBlockedByServer h _)) fun c h => ?_
  exact keeps_linkPending h

/-- The end of a body changes states only. -/
theorem keeps_endBody : Ensures (Sees Q) (c.endBody id) := by
  refine .bind_any fun s => .bind (P := Sees Q) (.ite ?_ (.ok h)) fun c h => ?_
  · refine .bind (keeps_setState h _) fun c h => ?_
    exact .ite (keeps_setState h _) (.ok h)
  · refine .ite (keeps_setReqBodyState h _) (.bind_any fun s => ?_)
    exact keeps_setReqBodyState (sees_put h _) _

/-- The chunk is written, or waits, or starts the request. -/
theorem keeps_deliverChunk (hQ : Kept Q)
    (isFirst isEndStream reqQueued : Bool) :
    Ensures (Sees Q)
      (c.deliverChunk env id isFirst isEndStream reqQueued) := by
  refine .bind_any fun s => .ite ?_ (.ite ?_ (.ite ?_ (.ok h)))
  · exact .ite (.ite (keeps_writeStreamingBody h hQ) (.ok h)) (.ok h)
  · exact keeps_linkPending (sees_put h _)
  · exact keeps_executeOrEnqueueRequest (sees_put h _)

/-- Too much of a body, or less than was declared, resets the stream. -/
theorem keeps_handleRequestBodyChunk (hQ : Kept Q) (payload : Nat)
    (isEndStream : Bool) :
    Ensures (Sees Q)
      (c.handleRequestBodyChunk env id payload isEndStream) := by
  refine .bind_any fun s => .ite (.error _) ?_
  refine .bind (.ite (keeps_setReqBodyState h _) (.ok h)) fun c h => ?_
  refine .bind_any fun s => .ite ?_ (.ite ?_ ?_)
  · exact keeps_sendRstStream hQ (sees_put h _)
      (by decide : CodeOk (value .refusedStream))
  · exact keeps_sendRstStream hQ (sees_put h _)
      (by decide : CodeOk (value .protocol))
  · have hput := sees_put h { s with received := s.received + payload }
    refine .bind (.ite (.ok hput) (keeps_setBlockedByServer hput _)) fun c h =>
      ?_
    refine .ite (keeps_streamReset h) ?_
    refine .bind (.ite (keeps_endBody h) (.ok h)) fun c h => ?_
    exact .bind_any fun s => keeps_deliverChunk (sees_put h _) hQ _ _ _

-- ==== requests

theorem keeps_processRequest : Ensures (Sees Q) (c.processRequest id) := by
  refine .bind_any fun s => .bind (P := Sees Q) ?_ fun c h => ?_
  · refine .ite (.ite (.error _) (.ok h)) (.ite ?_ (.ok h))
    exact .bind (keeps_setState h _) fun c h => keeps_setState h _
  · refine .bind_any fun s => .ok ?_
    split <;> exact h

/-- An error of the application resets the stream. -/
theorem keeps_proceedRequest (hQ : Kept Q) (err : Option Conn.ProceedError) :
    Ensures (Sees Q) (c.proceedRequest env id err) := by
  refine .bind_any fun s => .ite (.error _) ?_
  have hput := sees_put h
    { s with bufSize := s.bufSize - s.entity.getD 0, entity := none }
  cases err with
  | some err =>
    refine .bind_any fun s => ?_
    refine .bind (keeps_setReqBodyState (sees_put hput _) _) fun c hput => ?_
    refine .ite (.ok hput) (.ite (.bind_any fun s => .ok hput) ?_)
    refine .bind (keeps_streamSendError hQ hput ?_) fun c hput => ?_
    · split <;> decide
    · refine .bind (.ite (.ok hput) (keeps_linkProceed hput)) fun c hput => ?_
      exact keeps_streamReset hput
  | none =>
    dsimp only
    split
    · refine .bind (.ite (keeps_setBlockedByServer hput _) (.ok hput))
        fun c h => ?_
      exact .ite (keeps_writeStreamingBody h hQ) (.ok h)
    · exact .ite (.error _) (keeps_writeStreamingBody hput hQ)
    all_goals exact .error _

-- ==== responses

theorem keeps_requestWriteAndClose :
    Ensures (Sees Q) (c.requestWriteAndClose id) :=
  .bind (keeps_setState h _) fun _ h => .ite (.ok h) (keeps_linkProceed h)

theorem keeps_sendBody (hasData emptyAllowed : Bool) (sendState : SendState) :
    Ensures (Sees Q) (c.sendBody id hasData emptyAllowed sendState) := by
  refine .bind (.ite (keeps_setState h _) (.ok h)) fun c h => ?_
  refine .bind_any fun s => .ite (.error _) ?_
  exact .bind_any fun _ =>
    .ite (.ite (.error _) (.ok (sees_put h _)))
      (keeps_linkProceed (sees_put h _))

/-- The first part of a response, or the code it is refused with. -/
theorem keeps_sendHeaders (hQ : Kept Q) (headers : Conn.Headers)
    (hasBufs hasData : Bool) (sendState : SendState) :
    Ensures (Sees Q) (c.sendHeaders id headers hasBufs hasData sendState) := by
  cases headers with
  | refused =>
    apply keeps_requestWriteAndClose
    exact sees_encodeRstStream hQ h (by decide)
  | cancelled =>
    refine .bind (keeps_setState h _) fun c h => ?_
    refine .bind (keeps_linkProceed h) fun c h => .bind_any fun s => .ok ?_
    split
    · exact sees_encodeRstStream hQ h (by decide)
    · exact h
  | sent =>
    refine .bind_any fun s => ?_
    refine .bind (keeps_setState (sees_put h _) _) fun c h => ?_
    exact .ite (keeps_requestWriteAndClose h) (keeps_sendBody h _ _ _)

/-- In each state the stream goes on to the headers or to the body. -/
theorem keeps_finalostreamSend (hQ : Kept Q) (headers : Conn.Headers)
    (hasBufs hasData : Bool) (sendState : SendState) :
    Ensures (Sees Q)
      (c.finalostreamSend id headers hasBufs hasData sendState) := by
  refine .bind_any fun s => .ite (.error _) ?_
  refine .bind (.ite (keeps_setBlockedByServer h _) (.ok h)) fun c h => ?_
  refine .bind_any fun s => ?_
  have hput := sees_put h { s with sendState := sendState }
  split
  · refine .bind (keeps_setState hput _) fun c h => ?_
    refine .bind (keeps_setState h _) fun c h => ?_
    exact keeps_sendHeaders h hQ _ _ _ _
  · refine .bind (keeps_setState hput _) fun c h => ?_
    exact keeps_sendHeaders h hQ _ _ _ _
  · exact keeps_sendHeaders hput hQ _ _ _ _
  · exact keeps_sendBody hput _ _ _
  · exact .ok hput
  all_goals exact .error _

/-- A body that ends with an error ends with a code. -/
theorem keeps_sendPendingData (hQ : Kept Q) (payload : Nat)
    (sent : Conn.Sent) :
    Ensures (Sees Q) (c.sendPendingData id payload sent) := by
  refine .bind_any fun s => ?_
  cases sent with
  | failed =>
    refine keeps_setState (sees_put ?_ _) _
    exact sees_encodeRstStream hQ h (by decide)
  | part => exact .ok h
  | all refused =>
    -- `commit_data_header`
    have hcommit : ∀ c : Conn, Sees Q c → Sees Q (if s.sendState = .error then
          c.encodeRstStream id (if refused then value .refusedStream
            else value .protocol)
        else c) := by
      intro c h
      split
      · apply sees_encodeRstStream hQ h
        split <;> decide
      · exact h
    refine .ite (keeps_setState (hcommit _ ?_) _) (.ok (hcommit _ ?_))
    · exact h
    · exact h

theorem keeps_streamProceed : Ensures (Sees Q) (c.streamProceed id) := by
  refine .bind_any fun s => .ite (.ite (keeps_streamClose h) (.ok h)) ?_
  exact .ite (.ok h) (keeps_setBlockedByServer h _)

/-- One round of `on_write_complete`. -/
theorem keeps_proceedStream (hQ : Kept Q) :
    Ensures (Sees Q) c.proceedStream := by
  unfold Conn.proceedStream
  split
  · exact .ok h
  next id _ _ =>
    refine .ite (.ok h) (.bind_any fun s => .ite (.error _) ?_)
    refine .bind (P := Sees Q) (.ite ?_ (.ok h)) fun c h =>
      keeps_streamProceed h
    exact keeps_streamSendError hQ (c := (c.unlink id).put _) h (by decide)

/-- Whatever is called. -/
theorem keeps_call (hQ : Kept Q) (call : Call) :
    Ensures (Sees Q) (c.call call) := by
  cases call with
  | runPendingRequest id =>
    refine .ite (.ok h) (.bind_any fun s => .ite (.ok h) ?_)
    exact keeps_processRequest (c := c.unlink id) h
  | setWriteReq id writeReq => exact .bind_any fun s => .ok h
  | proceedRequest env id err => exact keeps_proceedRequest h hQ err
  | finalostreamSend id headers hasBufs hasData sendState =>
    exact keeps_finalostreamSend h hQ _ _ _ _
  | emitWritereq id payload sent =>
    refine .bind_any fun s => .ite (.error _) ?_
    refine .bind (.ite (.ok h) (keeps_sendPendingData h hQ _ _)) fun c h => ?_
    exact .bind_any fun s => .ite (.ok h) (keeps_linkProceed h)
  | proceedStream => exact keeps_proceedStream h hQ
  | pushPath =>
    refine .ite (.ok h) ?_
    refine .bind (keeps_prepareForRequest (c := c.streamOpen _) h) fun c h =>
      ?_
    refine .bind (keeps_executeOrEnqueueRequest h) fun c h => ?_
    refine .bind_any fun s => .ok ?_
    split <;> exact h
  | gracefulShutdown =>
    refine .ok ?_
    unfold Conn.initiateGracefulShutdown
    split
    · exact hQ.send (wireCode_le (by decide)) h
    · exact h
  | resendGoaway =>
    refine .ok ?_
    unfold Conn.resendGoaway
    split
    · exact sees_enqueueGoaway hQ h (by decide)
    · exact h
  | idleTimeout =>
    refine .ok (sees_closeConnection hQ ?_)
    exact sees_enqueueGoaway hQ h (by decide)
  | close => exact .ok (sees_closeConnection hQ h)

/-- Over a list of calls. -/
theorem keeps_calls (hQ : Kept Q) (calls : List Call) :
    Ensures (Sees Q) (calls.foldlM Conn.call c) := by
  induction calls generalizing c with
  | nil => exact .ok h
  | cons call calls ih =>
    exact .bind (keeps_call h hQ call) fun c h => ih h

-- ==== handlers

theorem keeps_sendInvalidRequestError :
    Ensures (Sees Q) (c.sendInvalidRequestError id) :=
  .bind (keeps_setState h _) fun _ h => keeps_setState h _

theorem keeps_processImmediately :
    Ensures (Sees Q) (c.processImmediately id) := by
  refine .bind_any fun s => ?_
  refine .bind (keeps_setState (sees_put h _) _) fun c h => ?_
  refine .bind (keeps_setReqBodyState h _) fun c h => ?_
  exact keeps_processRequest h

/-- A request is checked, then started, or refused with a code. -/
theorem keeps_handleRequest (hQ : Kept Q) (r : RequestHead) :
    Ensures (Sees Q) (c.handleRequest env id r) := by
  refine .bind_any fun s => ?_
  have hput := sees_put h
    { s with headers := r.headers, contentLength := r.contentLength }
  split
  · exact keeps_sendRstStream hQ hput (by decide)
  refine .ite ?_ (.ite ?_ (.ite ?_ ?_))
  · exact keeps_sendRstStream hQ hput (by decide)
  · exact keeps_sendRstStream hQ hput (by decide)
  · exact keeps_sendInvalidRequestError hput
  · refine .bind_any fun s =>
      .ite (.ite ?_ ?_) (.ite ?_ (.ite ?_ (.ite ?_ ?_)))
    · exact keeps_sendInvalidRequestError hput
    · exact keeps_processImmediately (sees_put hput _)
    · exact keeps_sendInvalidRequestError hput
    · exact keeps_processImmediately hput
    · exact keeps_executeOrEnqueueRequest hput
    · refine .bind (keeps_setState hput _) fun c hput => ?_
      exact keeps_setReqBodyState hput _

/-- The stream is reset, then told of the code. -/
theorem keeps_windowUpdateError (hQ : Kept Q) (hcode : CodeOk errnum) :
    Ensures (Sees Q) (c.windowUpdateError id errnum) := by
  refine .bind (P := Sees Q) ?_ fun c h => keeps_streamSendError hQ h hcode
  split
  · exact .ok h
  · exact keeps_streamReset h

end

end H2o.Http2Conn
