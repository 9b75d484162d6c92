/-
What the functions of the HTTP/2 client leave alone.

Most of the client's functions change neither a window nor a setting, and say
nothing to the application but that a stream has failed. `Changes` is such a
change of a connection: it keeps some part of the streams that are left, and
adds to the trace only labels of some kind. It is a preorder, and one lemma
for each function shows which change the function makes. `Quiet` keeps all of a
stream that its response and the flow control depend on. What is done when a
stream fails is part of many such preorders (`Walk`), and is followed once for
all of them.
-/
import H2o.Http2Client.Events
import H2o.Lib.Ensures

namespace H2o.Http2Client

open Http2 Lib List

variable {code : ErrorCode} {s : Stream} {err : Errstr} {f : Stream → Stream}

-- ==== changes

/-- What of a connection may be kept. -/
structure Kept where
  ctx : Context
  peerSettings : Settings
  maxOpenStreamId : Nat
  outWindow : Int
  inWindow : Int
  readFrame : ReadFrame
  headersUnparsed : Bytes

def Conn.kept (c : Conn) : Kept where
  ctx := c.ctx
  peerSettings := c.peerSettings
  maxOpenStreamId := c.maxOpenStreamId
  outWindow := c.outWindow
  inWindow := c.inWindow
  readFrame := c.readFrame
  headersUnparsed := c.headersUnparsed

/-- A change that keeps a part of the connection and a part of the streams
that are left, and adds labels of a kind. -/
structure Changes {α β : Type} (keep : Kept → β) (part : Stream → α)
    (lab : Label → Bool) (c c' : Conn) : Prop where
  kept : keep c'.kept = keep c.kept
  closing : c.state = .isClosing → c'.state = .isClosing
  streams : ∀ s' ∈ c'.streams, ∃ s ∈ c.streams, part s' = part s
  nodup : (c.streams.map (·.streamId)).Nodup →
    (c'.streams.map (·.streamId)).Nodup
  trace : ∃ ls, c'.trace = ls ++ c.trace ∧ ∀ l ∈ ls, lab l = true

section

variable {α β : Type} {keep : Kept → β} {part : Stream → α}
  {lab : Label → Bool} {c c' c'' : Conn}

theorem Changes.refl (c : Conn) : Changes keep part lab c c where
  kept := rfl
  closing h := h
  streams s hs := ⟨s, hs, rfl⟩
  nodup h := h
  trace := ⟨[], rfl, by simp⟩

/-- Changes compose: what was added to the trace is joined. -/
theorem Changes.trans (h : Changes keep part lab c c')
    (h' : Changes keep part lab c' c'') : Changes keep part lab c c'' where
  kept := h'.kept.trans h.kept
  closing := fun hc => h'.closing (h.closing hc)
  streams s'' hs'' := by
    obtain ⟨s', hs', hpart'⟩ := h'.streams s'' hs''
    obtain ⟨s, hs, hpart⟩ := h.streams s' hs'
    exact ⟨s, hs, hpart'.trans hpart⟩
  nodup := fun hn => h'.nodup (h.nodup hn)
  trace := by
    obtain ⟨ls, hls, hlab⟩ := h.trace
    obtain ⟨ls', hls', hlab'⟩ := h'.trace
    exact ⟨ls' ++ ls, by rw [hls', hls, append_assoc],
      forall_mem_append.2 ⟨hlab', hlab⟩⟩

/-- A change that keeps more is one that keeps less. -/
theorem Changes.mono {α' β' : Type} {keep' : Kept → β'} {part' : Stream → α'}
    {lab' : Label → Bool} (h : Changes keep part lab c c')
    (hkeep : ∀ k l, keep k = keep l → keep' k = keep' l)
    (hpart : ∀ s t, part s = part t → part' s = part' t)
    (hlab : ∀ l, lab l = true → lab' l = true) :
    Changes keep' part' lab' c c' :=
  { h with
    kept := hkeep _ _ h.kept
    streams := fun s' hs' => by
      obtain ⟨s, hs, hst⟩ := h.streams s' hs'
      exact ⟨s, hs, hpart s' s hst⟩
    trace := by
      obtain ⟨ls, hls, hl⟩ := h.trace
      exact ⟨ls, hls, fun l hmem => hlab l (hl l hmem)⟩ }

/-- What holds of a trace and is kept by the labels added to it. -/
theorem trace_induction {P : List Label → Prop} {q : Label → Prop}
    (h : ∃ ls, c'.trace = ls ++ c.trace ∧ ∀ l ∈ ls, q l) (hc : P c.trace)
    (hstep : ∀ l t, q l → P t → P (l :: t)) : P c'.trace := by
  obtain ⟨ls, hls, hl⟩ := h
  rw [hls]
  clear hls
  induction ls with
  | nil => exact hc
  | cons l ls ih =>
    obtain ⟨hl, hrest⟩ := forall_mem_cons.1 hl
    exact hstep l _ hl (ih hrest)

/-- A label that does not count may be added. -/
theorem Changes.log {l : Label} (hl : lab l = true) (c : Conn) :
    Changes keep part lab c (c.log l) :=
  { (Changes.refl c : Changes keep part lab c c) with
    trace := ⟨[l], rfl, by simpa using hl⟩ }

theorem Changes.emit {f : OutFrame} (hf : lab (.sent f) = true) (c : Conn) :
    Changes keep part lab c (c.emit f) :=
  { (Changes.refl c : Changes keep part lab c c) with
    trace := ⟨[.sent f], rfl, by simpa using hf⟩ }

/-- Streams keep their ids. -/
theorem map_streamId_setStream {streamId : Nat} (hf : ∀ t ∈ c.streams,
    t.streamId = streamId → (f t).streamId = streamId) :
    (c.setStream streamId f).streams.map (·.streamId) =
      c.streams.map (·.streamId) := by
  simp only [Conn.setStream, map_map]
  refine map_congr_left fun t ht => ?_
  by_cases hid : t.streamId = streamId
  · simp [hid, hf t ht hid]
  · simp [hid]

/-- The streams with an id are put in the place of some that agree. -/
theorem Changes.replace {streamId : Nat}
    (hf : ∀ t ∈ c.streams, t.streamId = streamId →
      (f t).streamId = streamId ∧ ∃ s ∈ c.streams, part (f t) = part s) :
    Changes keep part lab c (c.setStream streamId f) := by
  have hmap := map_streamId_setStream fun t ht hid => (hf t ht hid).1
  refine { (Changes.refl c : Changes keep part lab c c) with
    streams := fun t ht => ?_
    nodup := fun hn => hmap ▸ hn }
  obtain ⟨u, hu, ⟨hid, rfl⟩ | ⟨-, rfl⟩⟩ := Conn.mem_setStream.1 ht
  · exact (hf u hu hid).2
  · exact ⟨t, hu, rfl⟩

/-- Of a stream anything else may change. -/
theorem Changes.setStream (hf : ∀ s, part (f s) = part s ∧
    (f s).streamId = s.streamId)
    (streamId : Nat) (c : Conn) :
    Changes keep part lab c (c.setStream streamId f) :=
  .replace fun t ht h => ⟨(hf t).2.trans h, t, ht, (hf t).1⟩

/-- A stream may be replaced by one alike. -/
theorem Changes.assign {streamId : Nat} {s' : Stream}
    (hs : c.getStream streamId = some s) (hpart : part s' = part s)
    (hid : s'.streamId = s.streamId) :
    Changes keep part lab c (c.setStream streamId fun _ => s') := by
  obtain ⟨hmem, hstream⟩ := Conn.getStream_some hs
  exact .replace fun _ _ _ => ⟨hid.trans hstream, s, hmem, hpart⟩

theorem Changes.requestWrite (c : Conn) :
    Changes keep part lab c (requestWrite c) := by
  unfold Http2Client.requestWrite
  split
  · exact .refl c
  · split
    · exact { (Changes.refl c : Changes keep part lab c c) with }
    · exact .refl c

theorem Changes.emitRequest {f : OutFrame} (hf : lab (.sent f) = true)
    (c : Conn) :
    Changes keep part lab c (Http2Client.requestWrite (c.emit f)) :=
  (Changes.emit hf c).trans (.requestWrite _)

/-- A function that goes on from there. -/
theorem Changes.then {γ : Type} {g : γ → Conn} {r : Except Fault γ}
    (h : Changes keep part lab c c')
    (hr : Ensures (Changes keep part lab c' <| g ·) r) :
    Ensures (Changes keep part lab c <| g ·) r :=
  hr.imp fun _ h' => h.trans h'

theorem Changes.insertSending {streamId : Nat} :
    Ensures (Changes keep part lab c) (c.insertSending streamId) :=
  .ite (.error _) (.ok { (Changes.refl c : Changes keep part lab c c) with })

/-- Streams may go. -/
theorem Changes.removeStream (streamId : Nat) (c : Conn) :
    Changes keep part lab c (c.removeStream streamId) :=
  { (Changes.refl c : Changes keep part lab c c) with
    streams := fun s hs => ⟨s, (mem_filter.1 hs).1, rfl⟩
    nodup := fun hn => hn.sublist (filter_sublist.map _) }

/-- A stream that is closed is recorded and goes. -/
theorem Changes.closeStream {streamId : Nat}
    (hlab : lab (.closed streamId) = true) :
    Ensures (Changes keep part lab c) (closeStream c streamId) := by
  have hremove : Changes keep part lab c (c.removeStream streamId) :=
    .removeStream streamId c
  have hlink : Ensures (Changes keep part lab c)
      (unregisterStream c streamId) :=
    .ite (.error _) (.ite (.ite (.error _) (.ok { hremove with }))
      (.ok hremove))
  refine .bind hlink fun c₁ h => .ok ?_
  have hunlink : Changes keep part lab c (c₁.unlinkSending streamId) :=
    { h with }
  exact hunlink.trans (.log hlab _)

end

-- ==== quiet changes

/-- What is added to the trace when a stream fails or is closed. -/
def Label.quiet : Label → Bool
  | sent f => f.isControl
  | closed _ => true
  | cancelled _ => true
  | informational .. => true
  | onHead _ (some err) _ _ => err != .isEos
  | onBody _ (some err) _ _ => err != .isEos
  | proceed .. => true
  | _ => false

/-- What the response and the flow control of a stream depend on. -/
def Stream.core (s : Stream) :=
  (s.streamId, s.res, s.outWindow, s.inWindow, s.status, s.headers, s.bodySize,
    s.remaining, s.messageBodyForbidden)

abbrev Quiet : Conn → Conn → Prop := Changes id Stream.core Label.quiet

-- ==== streams that fail

/-- A preorder that has all that is done when a stream fails or is closed. -/
structure Walk (R : Conn → Conn → Prop) : Prop where
  refl (c : Conn) : R c c
  trans {c c' c'' : Conn} : R c c' → R c' c'' → R c c''
  told (streamId : Nat) (c : Conn) :
    R c (c.setStream streamId fun s => { s with told := true })
  stopped (streamId : Nat) (c : Conn) :
    R c (c.setStream streamId fun s => { s with proceedReq := false })
  unlinked (c : Conn) : R c { c with linked := false }
  log {l : Label} (hl : l.quiet = true) (c : Conn) : R c (c.log l)
  emit {f : OutFrame} (hf : f.isControl = true) (c : Conn) :
    R c (requestWrite (c.emit f))
  close {c : Conn} {streamId : Nat} : Ensures (R c) (closeStream c streamId)

section

variable {R : Conn → Conn → Prop} {c c' : Conn} {streamId : Nat} {f : Frame}

section

variable (hR : Walk R)
include hR

/-- A coarser preorder is walked too. -/
theorem Walk.mono {R' : Conn → Conn → Prop} (himp : ∀ {c c'}, R c c' → R' c c')
    (htrans : ∀ {c c' c''}, R' c c' → R' c' c'' → R' c c'') : Walk R' where
  refl c := himp (hR.refl c)
  trans := htrans
  told streamId c := himp (hR.told streamId c)
  stopped streamId c := himp (hR.stopped streamId c)
  unlinked c := himp (hR.unlinked c)
  log hl c := himp (hR.log hl c)
  emit hf c := himp (hR.emit hf c)
  close := hR.close.imp fun _ h => himp h

/-- A function that goes on from there. -/
theorem Walk.then {γ : Type} {g : γ → Conn} {r : Except Fault γ} (h : R c c')
    (hr : Ensures (R c' <| g ·) r) : Ensures (R c <| g ·) r :=
  hr.imp fun _ h' => hR.trans h h'

theorem Walk.foldlM {ε : Type} {f : Conn → ε → Except Fault Conn}
    (hf : ∀ c x, Ensures (R c) (f c x)) (xs : List ε) (c : Conn) :
    Ensures (R c) (xs.foldlM f c) :=
  fun _ h => run_rel hR.refl hR.trans (fun c x => hf c x) h

/-- The end of a response is reported like this only after it. -/
theorem Walk.callCallbackWithError
    (herr : err = .isEos → ∀ s, c.getStream streamId = some s →
      s.res = .closed) :
    Ensures (R c) (Http2Client.callCallbackWithError c streamId err) := by
  have htold := hR.told streamId c
  unfold Http2Client.callCallbackWithError
  split
  · exact .error _
  next s hs =>
    have hne : s.res ≠ .closed → (err != .isEos) = true := fun hres =>
      bne_iff_ne.2 fun heos => hres (herr heos s hs)
    split
    next hres =>
      refine .ok (hR.trans htold (hR.log ?_ _))
      exact hne (by simp [hres])
    next hres =>
      refine .ok (hR.trans htold (hR.log ?_ _))
      exact hne (by simp [hres])
    · exact .ite (.ok (hR.trans htold
        (hR.trans (hR.stopped _ _) (hR.log rfl _)))) (.ok (hR.refl c))

theorem Walk.callCallback_of_ne (herr : err ≠ .isEos) :
    Ensures (R c) (Http2Client.callCallbackWithError c streamId err) :=
  hR.callCallbackWithError fun heos => absurd heos herr

/-- All streams are told of an error, one by one. -/
theorem Walk.callStreamCallbacksWithError (herr : err ≠ .isEos) :
    Ensures (R c) (Http2Client.callStreamCallbacksWithError c err) :=
  hR.foldlM (fun _ _ => hR.callCallback_of_ne herr) _ c

theorem Walk.streamSendError :
    Ensures (R c) (Http2Client.streamSendError c streamId code) :=
  .ite (.error _) (.ite (.error _) (.ok (hR.emit rfl c)))

theorem Walk.sendRstStream :
    Ensures (R c) (Http2Client.sendRstStream c streamId code) :=
  .bind hR.streamSendError fun _ h => hR.then h hR.close

/-- The callback, an RST_STREAM frame and the end. -/
theorem Walk.failStream : Ensures (R c) (Http2Client.failStream c streamId) :=
  .bind (hR.callCallback_of_ne (by decide)) fun _ h =>
    hR.then h hR.sendRstStream

theorem Walk.giveUp : Ensures (R c) (Http2Client.giveUp c streamId code) :=
  hR.then (hR.log rfl c) hR.sendRstStream

theorem Walk.resetStream (herr : err ≠ .isEos) :
    Ensures (R c) (Http2Client.resetStream c streamId code err) :=
  .bind hR.streamSendError fun _ h =>
    .bind (hR.then h (hR.callCallback_of_ne herr)) fun _ h =>
      hR.then h hR.close

/-- A stream that timed out is given up. -/
theorem Walk.doStreamTimeout :
    Ensures (R c) (Http2Client.doStreamTimeout c streamId) := by
  unfold Http2Client.doStreamTimeout
  split
  · exact .error _
  · refine .bind (hR.callCallback_of_ne ?_) fun _ h => hR.then h hR.close
    split
    · decide
    · decide

end

theorem Walk.handleRstStreamFrame (hR : Walk R) :
    Ensures (R c ·.1) (Http2Client.handleRstStreamFrame c f) := by
  unfold Http2Client.handleRstStreamFrame
  split
  · exact .ok (hR.refl c)
  refine .ite (.ok (hR.refl c)) ?_
  split
  · exact .ok (hR.refl c)
  next s hs =>
    refine .bind (hR.callCallbackWithError fun heos s' hs' => ?_)
      fun _ h => .bind (hR.then h hR.close) fun _ h => .ok h
    obtain rfl : s = s' := Option.some.inj (hs.symm.trans hs')
    unfold rstErrstr at heos
    split at heos
    · cases heos
    · split at heos
      next hres => exact hres.2
      · cases heos

/-- The streams the server has not seen are refused. -/
theorem Walk.handleGoawayFrame (hR : Walk R) :
    Ensures (R c ·.1) (Http2Client.handleGoawayFrame c f) := by
  unfold Http2Client.handleGoawayFrame
  split
  · exact .ok (hR.refl c)
  · refine .bind (hR.foldlM (fun c id => ?_) _ c) fun _ h =>
      .ok (hR.trans h (hR.unlinked _))
    exact .ite (.bind (hR.callCallback_of_ne (by decide)) fun _ h =>
      hR.then h hR.close) (.ok (hR.refl c))

theorem Walk.handlePingFrame (hR : Walk R) (f : Frame) (c : Conn) :
    R c (Http2Client.handlePingFrame c f).1 := by
  unfold Http2Client.handlePingFrame
  split
  · exact hR.refl c
  · split
    · exact hR.refl c
    · exact hR.emit rfl c

end

-- ==== quiet functions

section

variable {c : Conn} {streamId : Nat}

/-- Errors of streams are quiet. -/
theorem quietWalk : Walk Quiet where
  refl := .refl
  trans := .trans
  told := .setStream fun _ => ⟨rfl, rfl⟩
  stopped := .setStream fun _ => ⟨rfl, rfl⟩
  unlinked c := { (Changes.refl c : Quiet c c) with }
  log := .log
  emit hf := .emitRequest hf
  close := .closeStream rfl

-- ==== the end of a connection

theorem quiet_closeConnectionNow : Ensures (Quiet c) (closeConnectionNow c) :=
  .bind (quietWalk.foldlM (fun _ _ => quietWalk.close) _ c) fun _ h =>
    .ite (.error _) (.ok { h with })

theorem quiet_isClosing (c : Conn) : Quiet c { c with state := .isClosing } :=
  { (Changes.refl c : Quiet c c) with closing := fun _ => rfl }

/-- So is the end of the connection, once or twice. -/
theorem quiet_closeConnection : Ensures (Quiet c) (closeConnection c) :=
  (quiet_isClosing c).then (.ite (.ok (.refl _)) quiet_closeConnectionNow)

theorem quiet_closeIfIdle (c : Conn) : Quiet c c.closeIfIdle := by
  unfold Conn.closeIfIdle
  split
  · exact quiet_isClosing c
  · exact .refl c

theorem quiet_closeConnectionIfNecessary :
    Ensures (Quiet c ·.1) (closeConnectionIfNecessary c) :=
  (quiet_closeIfIdle c).then (g := Prod.fst)
    (.ite (.bind quiet_closeConnectionNow fun _ h => .ok h) (.ok (.refl _)))

theorem quiet_enqueueGoaway (error : ConnError) (c : Conn) :
    Quiet c (enqueueGoaway c error) := by
  unfold enqueueGoaway
  split
  · exact .refl c
  next hstate =>
    have hemit : Quiet c (requestWrite (c.emit (.goaway error))) :=
      .emitRequest rfl c
    exact { hemit with closing := fun hc => absurd hc hstate }

/-- A GOAWAY frame, then the end. -/
theorem quiet_connectionError {error : ConnError} :
    Ensures (Quiet c) (connectionError c error) := by
  have hreport : Quiet c (reportError c error) := by
    unfold reportError
    split
    · exact .refl c
    · exact quiet_enqueueGoaway error c
  exact hreport.then
    (.bind (quietWalk.callStreamCallbacksWithError (by decide)) fun _ h =>
    h.then quiet_closeConnection)

-- ==== other handlers

theorem quiet_rejectWindowUpdate :
    Ensures (Quiet c) (rejectWindowUpdate c streamId code) :=
  .ite (quietWalk.resetStream (by decide)) quietWalk.streamSendError

-- ==== the application

/-- What the application writes is only buffered. -/
theorem quiet_doWriteReq {chunk : Bytes} {isEndStream : Bool} :
    Ensures (Quiet c) (doWriteReq c streamId chunk isEndStream) := by
  unfold doWriteReq
  split
  · exact .error _
  · exact .ite (.error _)
      (.bind ((Changes.setStream (by intro s; exact ⟨rfl, rfl⟩) _ _).then
      .insertSending) fun _ h => .ok (h.trans (.requestWrite _)))

theorem quiet_proceedReq {reaction : Reaction} :
    Ensures (Quiet c) (proceedReq c streamId reaction) := by
  have hlog : Quiet c ((c.setStream streamId fun s =>
      { s with mayWrite := true }).log (.proceed streamId none)) :=
    (Changes.setStream (by intro s; exact ⟨rfl, rfl⟩) _ _).trans (.log rfl _)
  cases reaction with
  | wait => exact .ok hlog
  | writeReq chunk isEndStream =>
    exact .ite (hlog.then quiet_doWriteReq) (.ok hlog)
  | cancel => exact hlog.then quietWalk.giveUp

theorem quiet_linkFirstByteTimeout :
    Ensures (Quiet c) (linkFirstByteTimeout c s) :=
  .ite (.error _) (.ok (.setStream (by intro s; exact ⟨rfl, rfl⟩) _ _))

theorem quiet_finishRequest :
    Ensures (Quiet c) (finishRequest c streamId) := by
  unfold finishRequest
  split
  · exact .ok (.refl c)
  · exact .ite ((Changes.setStream (by intro s; exact ⟨rfl, rfl⟩) _ _).then
      quiet_linkFirstByteTimeout) (.ok (.refl c))

/-- A write that completes asks for more, or ends the request. -/
theorem quiet_completeStream {reactions : Nat → Reaction} :
    Ensures (Quiet c) (completeStream reactions c streamId) := by
  have hunlink : Quiet c { c with sent := c.sent.filter (· != streamId) } :=
    { (Changes.refl c : Quiet c c) with }
  refine hunlink.then ?_
  unfold completeStream
  dsimp only
  split
  · exact .error _
  · exact .ite quiet_linkFirstByteTimeout
      (.bind (.ite quiet_proceedReq (.ok (.refl _)))
      fun _ h => h.then quiet_finishRequest)

theorem quiet_onIoTimeout : Ensures (Quiet c) (onIoTimeout c) :=
  .bind (quietWalk.foldlM (fun _ _ => quietWalk.doStreamTimeout) _ c)
    fun _ h =>
    h.then quiet_closeConnectionNow

theorem quiet_onKeepaliveTimeout : Ensures (Quiet c) (onKeepaliveTimeout c) :=
  ((quiet_enqueueGoaway _ c).trans (.requestWrite _)).then
  quiet_closeConnection

end

end H2o.Http2Client
