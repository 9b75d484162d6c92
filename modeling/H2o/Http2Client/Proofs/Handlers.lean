/-
What the handlers of HEADERS, CONTINUATION and DATA frames leave alone.

- `EndQuiet` is the change of `close_response`: the response of a stream ends;
- `FlowQuiet` keeps the windows, and is what the functions make that are given
  a header block;
- `BlockQuiet` is the same for the functions that read the frames of a block,
  and so change which frame is expected next;
- `WindowQuiet` is the change of `enqueue_window_update`;
- `DataQuiet` keeps the windows for sending, and is what the functions make
  that take data.
-/
import H2o.Http2Client.Proofs.Quiet

namespace H2o.Http2Client

open Http2 Hpack Lib

variable {s : Stream} {p : Parsed} {isEndStream : Bool} {src : Bytes}
  {ans : Answers}

-- ==== responses

section

variable {R : Conn → Conn → Prop} {c : Conn} {streamId : Nat} {f : Frame}
  {data : Bytes}

/-- A response ends, and with it perhaps the stream. -/
theorem Walk.closeResponse (hR : Walk R)
    (hset : R c (c.setStream streamId fun s => { s with res := .closed })) :
    Ensures (R c) (Http2Client.closeResponse c streamId) := by
  unfold Http2Client.closeResponse
  split
  · exact .error _
  · exact .ite (.error _) (.ite (hR.then hset hR.close) (.ok hset))

/-- A response of status 100 links the stream again. -/
theorem Walk.onInformational (hR : Walk R)
    (hset : R c (c.setStream s.streamId fun s =>
      { s with status := 0, sendOwnExpect := false }))
    (hinsert : ∀ {c : Conn}, Ensures (R c) (c.insertSending s.streamId))
    (hwrite : ∀ c, R c (requestWrite c)) :
    Ensures (R c) (Http2Client.onInformational c s p ans) := by
  have hlog : R c (c.log (.informational s.streamId p.status p.headers)) :=
    hR.log rfl c
  refine .ite hR.failStream (.ite (.ite ?_ (.ok hset))
    (.ite (.ite (hR.then hlog hR.giveUp) (.ok hlog)) (.ok (hR.refl c))))
  exact .bind (hR.then hset hinsert) fun _ h => .ok (hR.trans h (hwrite _))

/-- The head is reported; then a body comes, or the end. -/
theorem Walk.onFinalHead (hR : Walk R)
    (hhead : ∀ remaining forbidden err, R c
      ((c.setStream s.streamId fun s => { s with
          remaining
          messageBodyForbidden := s.messageBodyForbidden || forbidden }).log
        (.onHead s.streamId err p.status p.headers)))
    (hend : ∀ {c : Conn},
      Ensures (R c) (Http2Client.closeResponse c s.streamId))
    (hbody : ∀ c : Conn,
      R c (c.setStream s.streamId fun s => { s with res := .body })) :
    Ensures (R c) (Http2Client.onFinalHead c s p isEndStream ans) := by
  unfold Http2Client.onFinalHead
  split
  · exact hR.failStream
  · exact .ite (hR.then (hhead _ _ _) hend)
      (.ite (hR.then (hhead _ _ _) hR.giveUp)
      (.ok (hR.trans (hhead _ _ _) (hbody _))))

/-- Trailers are reported as the end of the body. -/
theorem Walk.onTrailersParsed (hR : Walk R)
    (hlog : R c (c.log (.onBody s.streamId (some .isEos) [] p.headers)))
    (hend : ∀ {c : Conn},
      Ensures (R c) (Http2Client.closeResponse c s.streamId)) :
    Ensures (R c) (Http2Client.onTrailersParsed c s p ans) :=
  .ite hR.failStream (.ite (hR.then hlog hR.sendRstStream) (hR.then hlog hend))

/-- A preorder that also has what is done when data are taken. -/
structure DataWalk (R : Conn → Conn → Prop) : Prop extends Walk R where
  ended (streamId : Nat) (c : Conn) :
    R c (c.setStream streamId fun s => { s with res := .closed })
  taken {f : Stream → Stream} (hf : ∀ s, ∃ remaining bodySize inWindow,
    f s = { s with remaining, bodySize, inWindow })
    (streamId : Nat) (c : Conn) :
    R c (c.setStream streamId f)
  inWindow (inWindow : Int) (c : Conn) : R c { c with inWindow }
  onBody (streamId : Nat) (err : Option Errstr) (data : Bytes) (c : Conn) :
    R c (c.log (.onBody streamId err data []))
  credit (streamId : Nat) (increment : Int) (c : Conn) :
    R c (requestWrite (c.emit (.windowUpdate streamId increment)))

theorem DataWalk.enqueueWindowUpdate (hR : DataWalk R) {avail : Int}
    {desired : Nat} :
    Ensures (R c ·.1)
      (Http2Client.enqueueWindowUpdate c streamId avail desired) :=
  .ite (.error _) (.ite (.ok (hR.credit _ _ c)) (.ok (hR.refl c)))

/-- The stream gets back what the application took. -/
theorem DataWalk.doUpdateWindow (hR : DataWalk R) :
    Ensures (R c) (Http2Client.doUpdateWindow c streamId) := by
  unfold Http2Client.doUpdateWindow
  split
  · exact .error _
  · exact .ite (.error _) (.bind hR.enqueueWindowUpdate fun _ h =>
      .ok (hR.trans h (hR.taken (fun _ => ⟨_, _, _, rfl⟩) _ _)))

/-- Data are counted and reported, then credit is given. -/
theorem DataWalk.acceptData (hR : DataWalk R) :
    Ensures (R c) (Http2Client.acceptData c s f data ans) := by
  have hbody : ∀ err, R c
      (({ c with inWindow := c.inWindow - data.length }.setStream s.streamId
        fun s => { s with
          bodySize := s.bodySize + data.length - ans.consumed
          inWindow := s.inWindow - data.length }).log
        (.onBody s.streamId err data [])) :=
    fun err => hR.trans (hR.inWindow _ c)
      (hR.trans (hR.taken (fun _ => ⟨_, _, _, rfl⟩) _ _) (hR.onBody _ err _ _))
  refine .ite (.ite (hR.then (hbody _) hR.sendRstStream)
    (hR.then (hbody _) hR.giveUp)) (.ite
    (hR.then (hbody _) (hR.closeResponse (hR.ended _ _))) ?_)
  exact .bind (hR.then (g := Prod.fst) (hbody _) hR.enqueueWindowUpdate)
    fun _ h => hR.then (hR.trans h (hR.inWindow _ _)) hR.doUpdateWindow

/-- Data that nobody waits for reset the stream. -/
theorem DataWalk.handleStreamData (hR : DataWalk R) :
    Ensures (R c) (Http2Client.handleStreamData c s f data ans) := by
  have hset : R c (c.setStream s.streamId fun s =>
      { s with remaining := s.remaining.map (· - data.length) }) :=
    hR.taken (fun _ => ⟨_, _, _, rfl⟩) _ _
  have hreset : Ensures (R c) (rejectData c s.streamId) :=
    hR.resetStream (by decide)
  refine .ite hreset
    (.ite hreset (.ite hreset (.ite ?_ (hR.then hset hR.acceptData))))
  exact .bind (hR.then hset (hR.callCallback_of_ne (by decide)))
    fun _ h => .bind (hR.then h hR.streamSendError) fun _ h =>
      hR.then h hR.close

/-- Data of a stream that has gone are counted all the same. -/
theorem DataWalk.handleDataFrame (hR : DataWalk R) :
    Ensures (R c ·.1) (Http2Client.handleDataFrame c f ans) := by
  unfold Http2Client.handleDataFrame
  split
  · exact .ok (hR.refl c)
  · split
    · exact .ite (.bind hR.enqueueWindowUpdate fun _ h =>
        .ok (hR.trans h (hR.inWindow _ _))) (.ok (hR.refl c))
    · exact .bind hR.handleStreamData fun _ h => .ok h

end

-- ==== end-quiet changes

/-- All that a quiet change keeps but the state of the response. -/
def Stream.exceptRes (s : Stream) :=
  (s.streamId, s.outWindow, s.inWindow, s.status, s.headers, s.bodySize,
    s.remaining, s.messageBodyForbidden)

abbrev EndQuiet : Conn → Conn → Prop := Changes id Stream.exceptRes Label.quiet

section

variable {c c' : Conn} {streamId : Nat}

theorem Changes.ended (h : Quiet c c') : EndQuiet c c' :=
  h.mono (fun _ _ h => h) (fun _ _ h => congrArg (fun p => (p.1, p.2.2)) h)
    (fun _ h => h)

/-- Only the state of the response changes. -/
theorem endQuiet_closeResponse :
    Ensures (EndQuiet c) (closeResponse c streamId) :=
  (quietWalk.mono Changes.ended .trans).closeResponse
    (.setStream (by intro s; exact ⟨rfl, rfl⟩) streamId c)

end

-- ==== flow-quiet changes

/-- What does not count for the flow control. -/
def Label.flowQuiet : Label → Bool
  | recv _ => false
  | sent f => f.isControl
  | opened .. => false
  | _ => true

/-- What the flow control of a stream depends on. -/
def Stream.windows (s : Stream) :=
  (s.streamId, s.outWindow, s.inWindow, s.bodySize)

abbrev FlowQuiet : Conn → Conn → Prop :=
  Changes id Stream.windows Label.flowQuiet

section

variable {c c' : Conn} {streamId : Nat}

/-- The state of a response does not count for the windows. -/
theorem EndQuiet.flow (h : EndQuiet c c') : FlowQuiet c c' := by
  refine h.mono (fun _ _ h => h) (fun _ _ h => congrArg
    (fun p => (p.1, p.2.1, p.2.2.1, p.2.2.2.2.2.1)) h) ?_
  intro l hl
  cases l <;> first | exact hl | rfl

theorem Changes.flow (h : Quiet c c') : FlowQuiet c c' := EndQuiet.flow h.ended

theorem flowWalk : Walk FlowQuiet := quietWalk.mono Changes.flow .trans

theorem flowQuiet_closeResponse :
    Ensures (FlowQuiet c) (closeResponse c streamId) :=
  endQuiet_closeResponse.imp fun _ h => EndQuiet.flow h

/-- No head changes a window. -/
theorem flowQuiet_onHeadParsed :
    Ensures (FlowQuiet c) (onHeadParsed c s p isEndStream ans) := by
  have hset : FlowQuiet c (c.setStream s.streamId fun s =>
      { s with status := p.status, headers := p.headers }) :=
    .setStream (by intro s; exact ⟨rfl, rfl⟩) _ c
  refine .ite (hset.then flowWalk.failStream)
    (.ite (hset.then ?_) (hset.then ?_))
  · exact flowWalk.onInformational
      (.setStream (by intro s; exact ⟨rfl, rfl⟩) _ _) .insertSending
      .requestWrite
  · exact flowWalk.onFinalHead
      (fun _ _ _ => (Changes.setStream (by intro s; exact ⟨rfl, rfl⟩)
        _ _).trans (.log rfl _))
      flowQuiet_closeResponse (.setStream (by intro s; exact ⟨rfl, rfl⟩) _)

/-- The table of the decoder does not matter. -/
theorem FlowQuiet.inTable (h : FlowQuiet c c') (t : HeaderTable) :
    FlowQuiet c { c' with inTable := t } := { h with }

/-- A block is recorded, and parsed with this table after it. -/
def Conn.parsed (c : Conn) (s : Stream) (src : Bytes) (t : HeaderTable) :
    Conn :=
  { c.log (.block s.streamId c.inTable src) with inTable := t }

/-- What bears that a block is recorded and parsed, and what is made of
trailers or of the beginning of a response, is kept. -/
theorem ensures_handleBlock {P : Conn → Prop} (hc : P c)
    (htable : ∀ {c : Conn} t, P c → P { c with inTable := t })
    (hblock : ∀ s ∈ c.streams, s.streamId = streamId →
      P (c.log (.block s.streamId c.inTable src)))
    (htrailers : ∀ s ∈ c.streams, s.streamId = streamId → s.res = .body →
      ∀ t p, P (c.parsed s src t) →
      Ensures P (onTrailersParsed (c.parsed s src t) s p ans))
    (hhead : ∀ s ∈ c.streams, s.streamId = streamId → s.res ≠ .body →
      ∀ t p, parseResponse c.inTable false s.headers src = .ok (t, p) →
      P (c.parsed s src t) →
      Ensures P (onHeadParsed (c.parsed s src t) s p isEndStream ans)) :
    Ensures (P ·.1) (handleBlock c streamId src isEndStream ans) := by
  unfold handleBlock
  split
  · unfold onHead
    dsimp only
    split
    · exact .ok hc
    · exact .ite (.error _) (.ok (htable _ hc))
  next s hget =>
    obtain ⟨hs, hid⟩ := Conn.getStream_some hget
    have hlog := hblock s hs hid
    refine .dite (fun hres => .ite (.error _) ?_) fun hres => ?_
    · dsimp only
      split
      · exact .ok hlog
      next t p _ =>
        exact .bind (htrailers s hs hid hres t p (htable t hlog)) fun _ h =>
          .ok h
    · unfold onHead
      dsimp only
      split
      · exact .ok hlog
      next t p hparse =>
        exact .bind (hhead s hs hid hres t p hparse (htable t hlog)) fun _ h =>
          .ok h

/-- A header block changes no window. -/
theorem flowQuiet_handleBlock :
    Ensures (FlowQuiet c ·.1) (handleBlock c streamId src isEndStream ans) :=
  ensures_handleBlock (.refl c) (fun t h => FlowQuiet.inTable h t)
    (fun _ _ _ => .log rfl c)
    (fun _ _ _ _ _ _ h =>
      h.then (flowWalk.onTrailersParsed (.log rfl _) flowQuiet_closeResponse))
    (fun _ _ _ _ _ _ _ h => h.then flowQuiet_onHeadParsed)

end

-- ==== HEADERS and CONTINUATION read

/-- The timer of a stream is unlinked. -/
def Conn.untimed (c : Conn) (streamId : Nat) : Conn :=
  c.setStream streamId fun s => { s with timeout := false }

/-- What reading a HEADERS frame does. -/
inductive HeadersRead (c : Conn) (f : Frame) (ans : Answers) :
    Conn → Option ConnError → Prop
  | rejected (err : ConnError) : HeadersRead c f ans c (some err)
  /-- Trailers without END_STREAM. -/
  | notLast (err : ConnError) :
    HeadersRead c f ans (c.untimed f.streamId) (some err)
  | begun {dependency : Nat} {headers : Bytes}
      (hdecode : decodeHeadersPayload f = .ok (dependency, headers))
      (hend : f.endHeaders = false) :
      HeadersRead c f ans { c.untimed f.streamId with
        readFrame := .expectContinuationOfHeaders f.endStream
        headersUnparsed := headers } none
  | complete {dependency : Nat} {headers : Bytes} {c' : Conn}
    {e : Option ConnError}
      (hdecode : decodeHeadersPayload f = .ok (dependency, headers))
      (hend : f.endHeaders = true)
      (h : handleBlock (c.untimed f.streamId) f.streamId headers f.endStream
        ans = .ok (c', e)) : HeadersRead c f ans c' e

/-- What reading a CONTINUATION frame does. -/
inductive ContinuationRead (c : Conn) (f : Frame) (eos : Bool)
    (ans : Answers) : Conn → Option ConnError → Prop
  | rejected (err : ConnError) : ContinuationRead c f eos ans c (some err)
  | continues (htype : f.type = .continuation) (hend : f.endHeaders = false) :
      ContinuationRead c f eos ans
        { c with headersUnparsed := c.headersUnparsed ++ f.payload } none
  | complete {c' : Conn} {e : Option ConnError}
      (htype : f.type = .continuation) (hend : f.endHeaders = true)
      (h : handleBlock { c with
        readFrame := .expectDefault, headersUnparsed := [] }
        f.streamId (c.headersUnparsed ++ f.payload) eos ans = .ok (c', e)) :
      ContinuationRead c f eos ans c' e

section

variable {c c' : Conn} {f : Frame} {e : Option ConnError}

theorem decodeFrame_error {err : ConnError} {max : Nat}
    (h : decodeFrame f max = .error err) : max < f.payload.length := by
  unfold decodeFrame at h
  split at h
  next hlen => exact hlen
  · cases h

/-- A frame is only checked for its length. -/
theorem decodeFrame_ok {f' : Frame} {max : Nat}
    (h : decodeFrame f max = .ok f') : f' = f ∧ f.payload.length ≤ max := by
  unfold decodeFrame at h
  split at h
  · cases h
  next hlen =>
    cases h
    exact ⟨rfl, by omega⟩

/-- There is no other way to read a HEADERS frame. -/
theorem headersRead (h : handleHeadersFrame c f ans = .ok (c', e)) :
    HeadersRead c f ans c' e := by
  have hread : Ensures (fun r => HeadersRead c f ans r.1 r.2)
      (handleHeadersFrame c f ans) := by
    have hrejected : ∀ err, Ensures (fun r => HeadersRead c f ans r.1 r.2)
        (.ok (c, some err) : Except Fault _) := fun err => .ok (.rejected err)
    unfold handleHeadersFrame
    split
    · exact hrejected _
    next dependency headers hdecode =>
      refine .ite (hrejected _) (.ite (hrejected _) (.ite (hrejected _)
        (.ite (.ok (.notLast _)) (.dite (fun hend => ?_) fun hend => ?_))))
      · exact .ok (.begun hdecode hend)
      · exact fun _ h => .complete hdecode (by simpa using hend) h
  exact hread _ h

/-- There is no other way to read a CONTINUATION frame. -/
theorem continuationRead {eos : Bool}
    (h : expectContinuationOfHeaders c f eos ans = .ok (c', e)) :
    ContinuationRead c f eos ans c' e := by
  have hread : Ensures (fun r => ContinuationRead c f eos ans r.1 r.2)
      (expectContinuationOfHeaders c f eos ans) := by
    unfold expectContinuationOfHeaders
    split
    · exact .ok (.rejected _)
    next f' hf =>
      obtain ⟨rfl, -⟩ := decodeFrame_ok hf
      refine .dite (fun _ => .ok (.rejected _)) fun htype => ?_
      have htype : f'.type = .continuation := by simpa using htype
      refine .ite (.ok (.rejected _)) (.dite (fun hend => ?_) fun hend => ?_)
      · exact fun _ h => .complete htype hend h
      · exact .ok (.continues htype (by simpa using hend))
  exact hread _ h

end

-- ==== block-quiet changes

/-- All but which frame is expected next. -/
def Kept.exceptReading (k : Kept) : Kept :=
  { k with readFrame := .expectDefault, headersUnparsed := [] }

abbrev BlockQuiet : Conn → Conn → Prop :=
  Changes Kept.exceptReading Stream.windows Label.flowQuiet

section

variable {c c' : Conn}

theorem Changes.block (h : FlowQuiet c c') : BlockQuiet c c' :=
  h.mono (fun _ _ hkl => congrArg Kept.exceptReading hkl) (fun _ _ hst =>
    hst) (fun _ hl => hl)

theorem blockQuiet_reading (readFrame : ReadFrame) (headersUnparsed : Bytes)
    (c : Conn) : BlockQuiet c { c with readFrame, headersUnparsed } :=
  { (Changes.refl c : BlockQuiet c c) with }

/-- Of what is read next only the block changes. -/
theorem blockQuiet_handleHeadersFrame {f : Frame}
    {e : Option ConnError} (h : handleHeadersFrame c f ans = .ok (c', e)) :
    BlockQuiet c c' := by
  have hset : FlowQuiet c (c.untimed f.streamId) :=
    .setStream (by intro s; exact ⟨rfl, rfl⟩) _ c
  cases headersRead h with
  | rejected => exact .refl c
  | notLast => exact hset.block
  | begun => exact hset.block.trans (blockQuiet_reading _ _ _)
  | complete hdecode hend h =>
    exact (hset.trans (flowQuiet_handleBlock _ h)).block

theorem blockQuiet_expectContinuationOfHeaders {f : Frame} {eos : Bool}
    {e : Option ConnError}
    (h : expectContinuationOfHeaders c f eos ans = .ok (c', e)) :
    BlockQuiet c c' := by
  cases continuationRead h with
  | rejected => exact .refl c
  | continues => exact blockQuiet_reading c.readFrame _ c
  | complete htype hend h =>
    exact (blockQuiet_reading _ _ c).trans (flowQuiet_handleBlock _ h).block

end

-- ==== window-quiet changes

/-- What is added to the trace when a window is filled up. -/
def Label.windowQuiet : Label → Bool
  | sent (.windowUpdate ..) => true
  | l => l.quiet

/-- All but the window for receiving, and the buffer it depends on. -/
def Stream.exceptWindow (s : Stream) :=
  (s.streamId, s.res, s.outWindow, s.status, s.headers, s.remaining,
    s.messageBodyForbidden)

/-- All but the window for receiving. -/
def Kept.exceptInWindow (k : Kept) : Kept := { k with inWindow := 0 }

abbrev WindowQuiet : Conn → Conn → Prop :=
  Changes Kept.exceptInWindow Stream.exceptWindow Label.windowQuiet

section

variable {c c' : Conn} {streamId : Nat}

theorem windowQuiet_enqueueWindowUpdate {avail : Int} {desired : Nat} :
    Ensures (WindowQuiet c ·.1)
      (enqueueWindowUpdate c streamId avail desired) :=
  .ite (.error _) (.ite (.ok (.emitRequest rfl c)) (.ok (.refl c)))

/-- Credit changes the window that is given, nothing else. -/
theorem windowQuiet_doUpdateWindow :
    Ensures (WindowQuiet c) (doUpdateWindow c streamId) := by
  unfold doUpdateWindow
  split
  · exact .error _
  · exact .ite (.error _) (.bind windowQuiet_enqueueWindowUpdate fun _ h =>
      .ok (h.trans (.setStream (by intro s; exact ⟨rfl, rfl⟩) _ _)))

theorem windowQuiet_inWindow (inWindow : Int) (c : Conn) :
    WindowQuiet c { c with inWindow } :=
  { (Changes.refl c : WindowQuiet c c) with }

end

-- ==== data-quiet changes

/-- What is added to the trace when data are taken. -/
def Label.dataQuiet : Label → Bool
  | onBody .. => true
  | l => l.windowQuiet

/-- What of a stream data do not change. -/
def Stream.exceptData (s : Stream) :=
  (s.streamId, s.outWindow, s.status, s.headers, s.messageBodyForbidden)

abbrev DataQuiet : Conn → Conn → Prop :=
  Changes Kept.exceptInWindow Stream.exceptData Label.dataQuiet

section

variable {c c' : Conn} {streamId : Nat}

theorem WindowQuiet.data (h : WindowQuiet c c') : DataQuiet c c' := by
  refine h.mono (fun _ _ h => h) (fun _ _ h => congrArg
    (fun p => (p.1, p.2.2.1, p.2.2.2.1, p.2.2.2.2.1, p.2.2.2.2.2.2)) h) ?_
  intro l hl
  cases l <;> first | exact hl | rfl

theorem Changes.data (h : Quiet c c') : DataQuiet c c' := by
  refine h.mono (fun _ _ => congrArg Kept.exceptInWindow)
    (fun _ _ h => congrArg (fun p =>
      (p.1, p.2.2.1, p.2.2.2.2.1, p.2.2.2.2.2.1, p.2.2.2.2.2.2.2.2)) h) ?_
  intro l hl
  cases l with
  | sent f => cases f <;> first | rfl | cases hl
  | _ => first | exact hl | rfl

theorem dataQuiet_inWindow (inWindow : Int) (c : Conn) :
    DataQuiet c { c with inWindow } :=
  { (Changes.refl c : DataQuiet c c) with }

/-- All that is done with data is quiet in this sense. -/
theorem dataWalk : DataWalk DataQuiet where
  toWalk := quietWalk.mono Changes.data .trans
  ended := .setStream fun _ => ⟨rfl, rfl⟩
  taken hf := .setStream fun s => by
    obtain ⟨_, _, _, hs⟩ := hf s
    rw [hs]
    exact ⟨rfl, rfl⟩
  inWindow := dataQuiet_inWindow
  onBody _ _ _ := .log rfl
  credit _ _ := .emitRequest rfl

end

end H2o.Http2Client
