/-
What an event can do to an HTTP/2 client connection, said once.

`Handled` is what reading a frame amounts to: the handler of its type, in the
state in which the frame is allowed, or an error that leaves the connection as
it is. `Turn` is what an event amounts to: writing, the opening of a stream, a
frame, or the application's word that it has taken octets. Every invariant of
the connection is shown by cases on these. The first are here: the connection
expects a CONTINUATION frame exactly within a header block (`ReadsBlock`), and
its streams have ids of their own (`OwnIds`).
-/
import H2o.Http2Client.Proofs.Emit
import H2o.Http2Client.Trace

namespace H2o.Http2Client

open Http2 Hpack Lib List

variable {s s' : Stream} {streamId : Nat} {f : Frame} {ans : Answers}

-- ==== frames

def ReadFrame.inBlock : ReadFrame → Bool
  | expectContinuationOfHeaders _ => true
  | _ => false

theorem ReadFrame.inBlock_eq_false {r : ReadFrame}
    (h : r = .expectSettings ∨ r = .expectDefault) : r.inBlock = false := by
  rcases h with rfl | rfl
  · rfl
  · rfl

/-- What reading a frame does. -/
inductive Handled (c : Conn) (f : Frame) (ans : Answers) :
    Conn → Option ConnError → Prop
  | rejected (err : ConnError) (hsettings : f.type = .settings →
    f.payload.length ≤ 16384 →
        c.readFrame.inBlock = true) : Handled c f ans c (some err)
  | ignored (hread : c.readFrame = .expectDefault)
      (htype : f.type = .priority ∨ ∃ type, f.type = .unknown type) :
      Handled c f ans c none
  | data {c' : Conn} {e : Option ConnError}
      (hread : c.readFrame = .expectDefault) (htype : f.type = .data)
      (h : handleDataFrame c f ans = .ok (c', e)) : Handled c f ans c' e
  | headers {c' : Conn} {e : Option ConnError}
      (hread : c.readFrame = .expectDefault) (htype : f.type = .headers)
      (h : handleHeadersFrame c f ans = .ok (c', e)) : Handled c f ans c' e
  /-- RST_STREAM, PING and GOAWAY. -/
  | quiet {c' : Conn} {e : Option ConnError} (hread : c.readFrame =
    .expectDefault)
      (htype : f.type = .rstStream ∨ f.type = .ping ∨ f.type = .goaway)
      (h : Quiet c c') : Handled c f ans c' e
  | settings {c' : Conn} {e : Option ConnError} {readFrame : ReadFrame}
      (hread : c.readFrame = .expectSettings ∨ c.readFrame = .expectDefault)
      (htype : f.type = .settings) (hlength : f.payload.length ≤ 16384)
      (h : handleSettingsFrame c f ans = .ok (c', e))
      (hnext : e = none → readFrame = .expectDefault) :
      Handled c f ans { c' with readFrame } e
  | windowUpdate {c' : Conn} {e : Option ConnError}
      (hread : c.readFrame = .expectDefault) (htype : f.type = .windowUpdate)
      (h : handleWindowUpdateFrame c f ans = .ok (c', e)) :
      Handled c f ans c' e
  | continuation {c' : Conn} {e : Option ConnError} {eos : Bool}
      (hread : c.readFrame = .expectContinuationOfHeaders eos)
      (htype : f.type = .continuation)
      (h : expectContinuationOfHeaders c f eos ans = .ok (c', e)) :
      Handled c f ans c' e

section

variable {c c' : Conn} {e : Option ConnError}

theorem handled_expectSettings (hread : c.readFrame = .expectSettings)
    (h : expectSettings c f ans = .ok (c', e)) : Handled c f ans c' e := by
  unfold expectSettings at h
  split at h
  next hlong =>
    cases h
    have hlong := decodeFrame_error hlong
    exact .rejected _ fun _ hlen => by omega
  next f' hf =>
    obtain ⟨rfl, hlen⟩ := decodeFrame_ok hf
    split at h
    next htype =>
      cases h
      exact .rejected _ fun hsettings => absurd hsettings htype
    next htype =>
      have htype : f'.type = .settings := by simpa using htype
      split at h
      next c₁ hc₁ =>
        cases h
        exact .settings (.inl hread) htype hlen hc₁ fun _ => rfl
      next r hr =>
        have hnext : e = none → c'.readFrame = .expectDefault := by
          intro he
          subst he
          exact absurd h (hr c')
        exact .settings (.inl hread) htype hlen h hnext

theorem handled_expectDefault (hread : c.readFrame = .expectDefault)
    (h : expectDefault c f ans = .ok (c', e)) : Handled c f ans c' e := by
  unfold expectDefault at h
  split at h
  next hlong =>
    cases h
    have hlong := decodeFrame_error hlong
    exact .rejected _ fun _ hlen => by omega
  next f' hf =>
    obtain ⟨rfl, hlen⟩ := decodeFrame_ok hf
    split at h
    next htype => exact .data hread htype h
    next htype => exact .headers hread htype h
    next htype =>
      unfold handlePriorityFrame at h
      split at h
      · cases h
        exact .rejected _ (by simp [htype])
      · split at h
        · cases h
          exact .rejected _ (by simp [htype])
        · cases h
          exact .ignored hread (.inl htype)
    next htype =>
      exact .quiet hread (.inl htype) (quietWalk.handleRstStreamFrame _ h)
    next htype =>
      have hkept := (recvQuiet_handleSettingsFrame _ h).kept
      have hnext : e = none → c'.readFrame = .expectDefault :=
        fun _ => (congrArg Kept.readFrame hkept).trans hread
      exact .settings (.inr hread) htype hlen h hnext
    next htype =>
      cases h
      exact .rejected _ (by simp [htype])
    next htype =>
      have hping := quietWalk.handlePingFrame f' c
      rw [Except.ok.inj h] at hping
      exact .quiet hread (.inr (.inl htype)) hping
    next htype =>
      exact .quiet hread (.inr (.inr htype)) (quietWalk.handleGoawayFrame _ h)
    next htype => exact .windowUpdate hread htype h
    next htype =>
      cases h
      exact .rejected _ (by simp [htype])
    next type htype =>
      cases h
      exact .ignored hread (.inr ⟨type, htype⟩)

/-- What is read next decides on the handler. -/
theorem handled_readFrame (h : readFrame c f ans = .ok (c', e)) :
    Handled c f ans c' e := by
  unfold readFrame at h
  split at h
  next hread => exact handled_expectSettings hread h
  next hread => exact handled_expectDefault hread h
  next eos hread =>
    by_cases htype : f.type = .continuation
    · exact .continuation hread htype h
    unfold expectContinuationOfHeaders at h
    have hblock : c.readFrame.inBlock = true := by
      simp [ReadFrame.inBlock, hread]
    split at h
    · cases h
      exact .rejected _ fun _ _ => hblock
    next f' hf =>
      obtain ⟨rfl, -⟩ := decodeFrame_ok hf
      rw [if_pos htype] at h
      cases h
      exact .rejected _ fun _ _ => hblock

end

-- ==== new streams

/-- The connection once a stream is set up on it. -/
def Conn.opened (c : Conn) (r : NewRequest) : Conn :=
  (registerStream c (r.setup c
    (setupStream c.ctx c.nextStreamId r.informationalCb))).log
      (.opened c.nextStreamId (r.request.method == ascii "HEAD"))

section

variable {c c' : Conn}

/-- A stream that is closed is not found again. -/
theorem closeStream_streams :
    Ensures (fun c' => ∀ s ∈ c'.streams, s.streamId ≠ streamId)
      (closeStream c streamId) := by
  have hremove : ∀ s ∈ (c.removeStream streamId).streams,
      s.streamId ≠ streamId := by
    intro s hs
    simpa using (mem_filter.1 hs).2
  refine .bind (P := fun c' => ∀ s ∈ c'.streams, s.streamId ≠ streamId)
    (.ite (.error _) (.ite (.ite (.error _) (.ok hremove)) (.ok hremove)))
    fun _ h => .ok h

/-- A stream of a connection on which one is opened. -/
theorem mem_opened {r : NewRequest} (hs : s ∈ (c.opened r).streams) :
    s = r.setup c (setupStream c.ctx c.nextStreamId r.informationalCb) ∨
      (s ∈ c.streams ∧ c.nextStreamId ≠ s.streamId) := by
  simp only [Conn.opened, registerStream, Conn.log, mem_append,
    mem_filter, mem_singleton, bne_iff_ne] at hs
  rcases hs with ⟨hs, hne⟩ | rfl
  · exact .inr ⟨hs, Ne.symm hne⟩
  · exact .inl rfl

/-- A stream that is closed at once could have been any. -/
theorem quiet_registerStream_of_closed {l : Label}
    (hid : s'.streamId = s.streamId)
    (h : Quiet ((registerStream c s).log l) c')
    (hclosed : ∀ t ∈ c'.streams, t.streamId ≠ s.streamId) :
    Quiet ((registerStream c s').log l) c' := by
  refine { h with
    kept := h.kept.trans ?_
    streams := fun t ht => ?_
    nodup := fun hn => h.nodup ?_ }
  · simp [Conn.kept, Conn.log, registerStream, hid]
  · obtain ⟨u, hu, hcore⟩ := h.streams t ht
    have hne : u.streamId ≠ s.streamId := by
      have hut : t.streamId = u.streamId := congrArg Prod.fst hcore
      exact hut ▸ hclosed t ht
    refine ⟨u, ?_, hcore⟩
    simp only [registerStream, Conn.log, mem_append, mem_singleton] at hu ⊢
    rcases hu with hu | rfl
    · exact .inl (by rwa [hid])
    · exact absurd rfl hne
  · simpa [registerStream, Conn.log, hid] using hn

theorem registerStream_setStream {l : Label} (hid : s'.streamId = s.streamId) :
    ((registerStream c s).log l).setStream s'.streamId (fun _ => s') =
      (registerStream c s').log l := by
  have hkeep : ∀ t ∈ c.streams.filter (fun t => t.streamId != s.streamId),
      (if t.streamId = s.streamId then s' else t) = t := by
    intro t ht
    have hne : t.streamId ≠ s.streamId := by simpa using (mem_filter.1 ht).2
    exact if_neg hne
  simp only [registerStream, Conn.log, Conn.setStream, map_append, hid,
    map_congr_left hkeep, map_cons, map_nil, if_true,
    map_id']

theorem quiet_outTable (t : HeaderTable) (c : Conn) :
    Quiet c { c with outTable := t } :=
  { (Changes.refl c : Quiet c c) with }

/-- A request is sent without a change to other streams. -/
theorem quiet_onConnectionReady {r : NewRequest} :
    Ensures (Quiet (c.opened r)) (onConnectionReady c r) := by
  refine .ite (fun c' h => ?_) (.bind (P := Quiet (c.opened r)) ?_
    fun _ h => .ok (h.trans (.requestWrite _)))
  · refine quiet_registerStream_of_closed (by rfl) ?_ (closeStream_streams _ h)
    exact (Changes.log rfl _).trans (quietWalk.close _ h)
  · refine Changes.then (Changes.trans (Changes.trans ?_ (quiet_outTable _ _))
      (.emit rfl _)) .insertSending
    have hid : (r.setup c
        (setupStream c.ctx c.nextStreamId r.informationalCb)).streamId =
      (setupStream c.ctx c.nextStreamId r.informationalCb).streamId := rfl
    have hset := registerStream_setStream (c := c)
      (l := .opened c.nextStreamId (r.request.method == ascii "HEAD")) hid
    exact (congrArg (Quiet (c.opened r)) hset).mpr (.refl _)

end

-- ==== events

/-- The connection when a frame is found. -/
def Conn.received (c : Conn) (f : Frame) : Conn :=
  { c with ioTimeout := false }.log (.recv f)

/-- What an event does. -/
inductive Turn (c : Conn) : Event → Conn → Prop
  | writes {e : Event} {c' : Conn} (h : Writes c c') : Turn c e c'
  | opens {r : NewRequest} {c' : Conn} (h : Quiet (c.opened r) c') :
    Turn c (.open r) c'
  | frame {f : Frame} {ans : Answers} {c₁ c' : Conn} {e : Option ConnError}
      (hstate : c.state ≠ .isClosing)
      (h : Handled (c.received f) f ans c₁ e)
      (hc : e = none ∧ c' = c₁ ∨ Quiet c₁ c' ∧ c'.state = .isClosing) :
      Turn c (.frame f ans) c'
  | updates {streamId consumed : Nat} {s : Stream} {c' : Conn}
      (hs : c.getStream streamId = some s) (hconsumed : consumed ≤ s.bodySize)
      (h : doUpdateWindow (c.setStream streamId fun s =>
        { s with bodySize := s.bodySize - consumed }) streamId = .ok c') :
      Turn c (.updateWindow streamId consumed) c'

def Event.isFrame : Event → Bool
  | frame _ _ => true
  | _ => false

/-- A condition on the frames that are received can be evaluated if it can be
for each of them. -/
def Event.decidableOfFrame {P : Event → Prop}
    (hframe : ∀ f ans, Decidable (P (.frame f ans)))
    (hother : ∀ e : Event, e.isFrame = false → P e) (e : Event) :
    Decidable (P e) := by
  cases e with
  | frame f ans => exact hframe f ans
  | _ => exact .isTrue (hother _ rfl)

section

variable {c c' : Conn} {e : Event}

/-- An error of the connection ends it. -/
theorem connectionError_isClosing {error : ConnError} :
    Ensures (·.state = .isClosing) (connectionError c error) :=
  .bind_any fun _ => .ite (.ok rfl) (quiet_closeConnectionNow.imp fun _ h =>
    h.closing rfl)

/-- Each event by its handler. -/
theorem turn_handle (henabled : e.enabled c = true) (h : handle c e = .ok c') :
    Turn c e c' := by
  have hio : ∀ b, Quiet c { c with ioTimeout := b } := fun b =>
    { (Changes.refl c : Quiet c c) with }
  cases e with
  | «open» r =>
    have hio : Quiet (c.opened r)
        (Conn.opened { c with ioTimeout := true } r) :=
      { (Changes.refl _ : Quiet (c.opened r) (c.opened r)) with }
    exact .opens (hio.trans (quiet_onConnectionReady _ h))
  | frame f ans =>
    have hstate : c.state ≠ .isClosing := by
      simpa [Event.enabled] using henabled
    change parseFrame (c.received f) f ans = _ at h
    unfold parseFrame at h
    split at h
    · cases h
    next c₁ hread =>
      cases h
      exact .frame hstate (handled_readFrame hread) (.inl ⟨rfl, rfl⟩)
    next c₁ err hread =>
      exact .frame hstate (handled_readFrame hread)
        (.inr ⟨quiet_connectionError _ h, connectionError_isClosing _ h⟩)
  | readDone room => exact .writes (writes_readDone _ h)
  | readError =>
    have herror : Ensures (Quiet c) (handle c .readError) :=
      (hio false).then (.bind
        (quietWalk.callStreamCallbacksWithError (by decide))
        fun _ h => h.then quiet_closeConnection)
    exact .writes (herror _ h).writes
  | deferTimeout room => exact .writes (writes_defer _ h)
  | writeComplete err reactions room =>
    exact .writes (writes_onWriteComplete _ h)
  | notifyWrite err room => exact .writes (writes_onNotifyWrite _ h)
  | streamTimeout streamId =>
    have hset : Quiet c (c.setStream streamId fun s =>
        { s with timeout := false }) :=
      .setStream (by intro s; exact ⟨rfl, rfl⟩) _ c
    exact .writes (hset.trans (quietWalk.doStreamTimeout _ h)).writes
  | ioTimeout =>
    exact .writes ((hio false).trans (quiet_onIoTimeout _ h)).writes
  | keepaliveTimeout =>
    have hkeepalive : Quiet c { c with keepaliveTimeout := false } :=
      { (Changes.refl c : Quiet c c) with }
    exact .writes (hkeepalive.trans (quiet_onKeepaliveTimeout _ h)).writes
  | writeReq streamId chunk isEndStream =>
    exact .writes (quiet_doWriteReq _ h).writes
  | cancel streamId => exact .writes (quietWalk.giveUp _ h).writes
  | updateWindow streamId consumed =>
    simp only [Event.enabled, Option.any_eq_true, Bool.and_eq_true,
      decide_eq_true_eq] at henabled
    obtain ⟨s, hs, -, hconsumed⟩ := henabled
    exact .updates hs hconsumed h

section

variable {consumed : Nat} (h : doUpdateWindow (c.setStream streamId fun s =>
      { s with bodySize := s.bodySize - consumed }) streamId = .ok c')
include h

theorem windowQuiet_updates : WindowQuiet c c' :=
  (Changes.setStream (by intro s; exact ⟨rfl, rfl⟩) _ c).trans
  (windowQuiet_doUpdateWindow _ h)

theorem dataQuiet_updates : DataQuiet c c' :=
  WindowQuiet.data (windowQuiet_updates h)

end

/-- Every step is a turn; this is all that is used of `step`. -/
theorem turn_of_step (h : step c e = .ok c') : Turn c e c' := by
  unfold step at h
  split at h
  next hgo =>
    rw [Bool.and_eq_true] at hgo
    exact turn_handle hgo.2 h
  next =>
    cases h
    exact .writes .refl

end

-- ==== header blocks

/-- A CONTINUATION frame is expected exactly within a header block. -/
def ReadsBlock (c : Conn) : Prop :=
  c.state ≠ .isClosing → c.readFrame.inBlock = inHeaderBlock c.trace

section

variable {c c' : Conn}

/-- No frame is received in between. -/
def Unread (c c' : Conn) : Prop := ∃ ls, c'.trace = ls ++ c.trace ∧ ∀ l ∈ ls,
    l.isRecv = false

/-- Nothing was received meanwhile. -/
theorem Changes.unread {α β : Type} {keep : Kept → β} {part : Stream → α}
    {lab : Label → Bool} (hlab : ∀ l, lab l = true → l.isRecv = false)
    (h : Changes keep part lab c c') : Unread c c' := by
  obtain ⟨ls, hls, hl⟩ := h.trace
  exact ⟨ls, hls, fun l hmem => hlab l (hl l hmem)⟩

/-- What is read from the frames of a trace stays the same. -/
theorem Unread.eq {β : Type} {g : List Label → β} (h : Unread c c')
    (hg : ∀ l t, l.isRecv = false → g (l :: t) = g t) :
    g c'.trace = g c.trace :=
  trace_induction (P := fun t => g t = g c.trace) h rfl fun l t hl ht =>
    (hg l t hl).trans ht

/-- Then no block was begun or ended. -/
theorem Unread.inHeaderBlock (h : Unread c c') :
    inHeaderBlock c'.trace = inHeaderBlock c.trace := by
  refine h.eq fun l t hl => ?_
  cases l <;> first | rfl | cases hl

/-- Nothing is received, and the same frame is expected. -/
abbrev ReadQuiet : Conn → Conn → Prop :=
  Changes Kept.readFrame (fun _ => ()) fun l => !l.isRecv

theorem ReadQuiet.unread (h : ReadQuiet c c') : Unread c c' :=
  Changes.unread (fun l hl => by simpa using hl) h

theorem isRecv_of_flowQuiet (l : Label) (h : l.flowQuiet = true) :
    l.isRecv = false := by
  cases l <;> first | rfl | cases h

theorem FlowQuiet.read (h : FlowQuiet c c') : ReadQuiet c c' :=
  h.mono (fun _ _ => congrArg Kept.readFrame) (fun _ _ _ => rfl)
    fun l hl => by simp [isRecv_of_flowQuiet l hl]

theorem DataQuiet.read (h : DataQuiet c c') : ReadQuiet c c' := by
  refine h.mono (fun _ _ h => (congrArg Kept.readFrame h :))
    (fun _ _ _ => rfl) ?_
  intro l hl
  cases l <;> first | rfl | cases hl

theorem RecvQuiet.read (h : RecvQuiet c c') : ReadQuiet c c' := by
  refine h.mono (fun _ _ h => (congrArg Kept.readFrame h :))
    (fun _ _ _ => rfl) ?_
  intro l hl
  cases l <;> first | rfl | cases hl

theorem BlockQuiet.inHeaderBlock (h : BlockQuiet c c') :
    inHeaderBlock c'.trace = inHeaderBlock c.trace :=
  (h.unread isRecv_of_flowQuiet).inHeaderBlock

/-- A frame that is read without an error: outside of a block one that begins
none, or a frame of a block. -/
theorem Handled.read (h : Handled (c.received f) f ans c' none) :
    (c.readFrame.inBlock = false ∧ f.type ≠ .headers ∧ f.type ≠ .continuation ∧
      c'.readFrame = .expectDefault ∧ Unread (c.received f) c') ∨
    (c.readFrame = .expectDefault ∧ f.type = .headers ∧
      handleHeadersFrame (c.received f) f ans = .ok (c', none)) ∨
    ∃ eos, c.readFrame = .expectContinuationOfHeaders eos ∧
      f.type = .continuation ∧
      expectContinuationOfHeaders (c.received f) f eos ans =
        .ok (c', none) := by
  have hother : c.readFrame = .expectDefault → f.type ≠ .headers →
      f.type ≠ .continuation →
      ReadQuiet (c.received f) c' → c.readFrame.inBlock = false ∧
        f.type ≠ .headers ∧
        f.type ≠ .continuation ∧ c'.readFrame = .expectDefault ∧
          Unread (c.received f) c' :=
    fun hread hheaders hcont h =>
      ⟨by rw [hread]; rfl, hheaders, hcont, h.kept.trans hread,
      ReadQuiet.unread h⟩
  cases h with
  | ignored hread htype =>
    exact .inl (hother hread (fun h => by simp [h] at htype)
      (fun h => by simp [h] at htype)
      (.refl _))
  | data hread htype h =>
    exact .inl (hother hread (by simp [htype]) (by simp [htype])
      (DataQuiet.read (dataWalk.handleDataFrame _ h)))
  | headers hread htype h => exact .inr (.inl ⟨hread, htype, h⟩)
  | quiet hread htype h =>
    exact .inl (hother hread (fun h => by simp [h] at htype)
      (fun h => by simp [h] at htype)
      (RecvQuiet.read h.recv))
  | settings hread htype hlength h hnext =>
    have hunread :=
      ReadQuiet.unread (RecvQuiet.read (recvQuiet_handleSettingsFrame _ h))
    exact .inl ⟨ReadFrame.inBlock_eq_false hread, by simp [htype],
      by simp [htype], hnext rfl, hunread⟩
  | windowUpdate hread htype h =>
    exact .inl (hother hread (by simp [htype]) (by simp [htype])
      (RecvQuiet.read (recvQuiet_handleWindowUpdateFrame _ h)))
  | continuation hread htype h => exact .inr (.inr ⟨_, hread, htype, h⟩)

/-- The reader expects CONTINUATION exactly inside a block. -/
theorem handled_inBlock (hblock : c.readFrame.inBlock = inHeaderBlock c.trace)
    (h : Handled (c.received f) f ans c' none) :
    c'.readFrame.inBlock = inHeaderBlock c'.trace := by
  obtain ⟨hread, htype, -, hread', h⟩ | ⟨hread, htype, h⟩ | ⟨eos, hread, htype,
      h⟩ := h.read
  · rw [hread', h.inHeaderBlock]
    simp [ReadFrame.inBlock, Conn.received, Conn.log, inHeaderBlock,
      hblock.symm.trans hread, htype]
  · have hnone : inHeaderBlock c.trace = false := by
      rw [← hblock, hread]
      rfl
    have hread' : c'.readFrame.inBlock = !f.endHeaders := by
      cases headersRead h with
      | begun hdecode hend => simp [ReadFrame.inBlock, hend]
      | complete hdecode hend h =>
        have hkept := (flowQuiet_handleBlock _ h).kept
        have hread' : c'.readFrame = .expectDefault :=
          (congrArg Kept.readFrame hkept).trans hread
        simp [ReadFrame.inBlock, hread', hend]
    rw [hread', BlockQuiet.inHeaderBlock (blockQuiet_handleHeadersFrame h)]
    simp [Conn.received, Conn.log, inHeaderBlock, hnone, htype]
  · have hsome : inHeaderBlock c.trace = true := by
      rw [← hblock, hread]
      rfl
    have hread' : c'.readFrame.inBlock = !f.endHeaders := by
      cases continuationRead h with
      | continues htype hend =>
        show c.readFrame.inBlock = _
        simp [ReadFrame.inBlock, hread, hend]
      | complete htype hend h =>
        have hkept := (flowQuiet_handleBlock _ h).kept
        have hread' : c'.readFrame = .expectDefault :=
          congrArg Kept.readFrame hkept
        simp [ReadFrame.inBlock, hread', hend]
    rw [hread', BlockQuiet.inHeaderBlock
      (blockQuiet_expectContinuationOfHeaders h)]
    simp [Conn.received, Conn.log, inHeaderBlock, hsome, htype]

theorem readsBlock_of_quiet (hc : ReadsBlock c) (h : ReadQuiet c c') :
    ReadsBlock c' := by
  intro hstate
  rw [(ReadQuiet.unread h).inHeaderBlock]
  exact (congrArg ReadFrame.inBlock h.kept).trans (hc (mt h.closing hstate))

/-- That stays so. -/
theorem readsBlock_turn {e : Event} (hc : ReadsBlock c) (h : Turn c e c') :
    ReadsBlock c' := by
  intro hstate
  cases h with
  | writes h => exact readsBlock_of_quiet hc (RecvQuiet.read h.recv) hstate
  | @opens r _ h =>
    have hopened : ReadsBlock (c.opened r) := hc
    exact readsBlock_of_quiet hopened (FlowQuiet.read h.flow) hstate
  | frame hopen h hc' =>
    obtain ⟨rfl, rfl⟩ | ⟨-, hclosing⟩ := hc'
    · exact handled_inBlock (hc hopen) h
    · exact absurd hclosing hstate
  | updates hs hconsumed h =>
    exact readsBlock_of_quiet hc (DataQuiet.read (dataQuiet_updates h)) hstate

end

-- ==== stream ids

/-- The streams have ids of their own, and none has the connection's. -/
structure OwnIds (c : Conn) : Prop where
  nodup : (c.streams.map (·.streamId)).Nodup
  maxOpen : c.maxOpenStreamId = 0 ∨ c.maxOpenStreamId % 2 = 1
  ne_zero : ∀ s ∈ c.streams, s.streamId ≠ 0

/-- No stream is opened. -/
abbrev IdQuiet : Conn → Conn → Prop :=
  Changes Kept.maxOpenStreamId Stream.streamId fun _ => true

section

variable {c c' : Conn}

theorem FlowQuiet.ids (h : FlowQuiet c c') : IdQuiet c c' :=
  h.mono (fun _ _ => congrArg Kept.maxOpenStreamId) (fun _ _ =>
    congrArg Prod.fst) (fun _ _ => rfl)

theorem BlockQuiet.ids (h : BlockQuiet c c') : IdQuiet c c' :=
  h.mono (fun _ _ h => (congrArg Kept.maxOpenStreamId h :))
    (fun _ _ => congrArg Prod.fst) (fun _ _ => rfl)

theorem DataQuiet.ids (h : DataQuiet c c') : IdQuiet c c' :=
  h.mono (fun _ _ h => (congrArg Kept.maxOpenStreamId h :))
    (fun _ _ => congrArg Prod.fst) (fun _ _ => rfl)

theorem RecvQuiet.ids (h : RecvQuiet c c') : IdQuiet c c' :=
  h.mono (fun _ _ h => (congrArg Kept.maxOpenStreamId h :))
    (fun _ _ => congrArg Prod.fst) (fun _ _ => rfl)

/-- Where no stream comes, ids stay odd and distinct. -/
theorem OwnIds.of_quiet (hc : OwnIds c) (h : IdQuiet c c') : OwnIds c' where
  nodup := h.nodup hc.nodup
  maxOpen := by
    rw [show c'.maxOpenStreamId = c.maxOpenStreamId from h.kept]
    exact hc.maxOpen
  ne_zero := by
    intro s' hs'
    obtain ⟨s, hs, hid⟩ := h.streams s' hs'
    rw [hid]
    exact hc.ne_zero s hs

theorem nextStreamId_odd (hc : OwnIds c) : c.nextStreamId % 2 = 1 := by
  have hmax := hc.maxOpen
  unfold Conn.nextStreamId
  split
  · rfl
  · omega

/-- A new stream has the next odd id. -/
theorem OwnIds.opened (hc : OwnIds c) (r : NewRequest) :
    OwnIds (c.opened r) where
  nodup := by
    simp only [Conn.opened, Conn.log, registerStream, map_append, map_cons,
      map_nil]
    refine List.Nodup.append (hc.nodup.sublist (filter_sublist.map _))
      (nodup_singleton _) ?_
    simp only [disjoint_singleton, mem_map, mem_filter, bne_iff_ne]
    rintro ⟨t, ⟨-, hne⟩, hid⟩
    exact hne hid
  maxOpen := .inr (nextStreamId_odd hc)
  ne_zero := by
    have hodd := nextStreamId_odd hc
    intro s hs
    obtain rfl | ⟨hs, -⟩ := mem_opened hs
    · simp only [NewRequest.setup, setupStream]
      omega
    · exact hc.ne_zero s hs

/-- What holds of every change a handler can make holds of a frame. -/
theorem Handled.changes {R : Conn → Prop}
    {e : Option ConnError} (h : Handled c f ans c' e) (hrefl : R c)
    (hdata : ∀ c', DataQuiet c c' → R c')
    (hblock : ∀ c', BlockQuiet c c' → R c')
    (hrecv : ∀ c' r, RecvQuiet c c' → R { c' with readFrame := r }) :
    R c' := by
  cases h with
  | rejected => exact hrefl
  | ignored => exact hrefl
  | data hread htype h => exact hdata _ (dataWalk.handleDataFrame _ h)
  | headers hread htype h => exact hblock _ (blockQuiet_handleHeadersFrame h)
  | quiet hread htype h => exact hrecv c' _ h.recv
  | settings hread htype hlength h hnext =>
    exact hrecv _ _ (recvQuiet_handleSettingsFrame _ h)
  | windowUpdate hread htype h =>
    exact hrecv c' _ (recvQuiet_handleWindowUpdateFrame _ h)
  | continuation hread htype h =>
    exact hblock _ (blockQuiet_expectContinuationOfHeaders h)

theorem handled_ids {e : Option ConnError} (h : Handled c f ans c' e) :
    IdQuiet c c' := by
  refine h.changes (.refl c) (fun _ => DataQuiet.ids) (fun _ => BlockQuiet.ids)
    fun c' r h => ?_
  exact { RecvQuiet.ids h with }

/-- What one event keeps. -/
theorem ownIds_turn {e : Event} (hc : OwnIds c) (h : Turn c e c') :
    OwnIds c' := by
  cases h with
  | writes h => exact hc.of_quiet (RecvQuiet.ids h.recv)
  | @opens r _ h => exact (hc.opened r).of_quiet (RecvQuiet.ids h.recv)
  | @frame f _ _ _ _ hstate h hc' =>
    have hrecv : OwnIds (c.received f) := { hc with }
    have hids := hrecv.of_quiet (handled_ids h)
    rcases hc' with ⟨-, rfl⟩ | ⟨hquiet, -⟩
    · exact hids
    · exact hids.of_quiet (RecvQuiet.ids hquiet.recv)
  | updates hs hconsumed h =>
    exact hc.of_quiet (DataQuiet.ids (dataQuiet_updates h))

/-- What every run keeps. -/
structure Base (c : Conn) : Prop where
  ids : OwnIds c
  reads : ReadsBlock c

/-- What every step keeps of a connection that is as it should be. -/
theorem run_base {Inv : Conn → Prop} {cond : Conn → Event → Prop}
    {ctx : Context} {es : List Event}
    (hinv : ∀ c e c', Inv c → Base c → cond c e → step c e = .ok c' → Inv c')
    (hinit : Inv (createConnection ctx))
    (hcond : Meets step cond (createConnection ctx) es)
    (hrun : es.foldlM step (createConnection ctx) = .ok c) : Inv c :=
  (run_invariant (I := fun c => Inv c ∧ Base c)
    (fun c e c' hc hcond hstep => ⟨hinv c e c' hc.1 hc.2 hcond hstep,
      ownIds_turn hc.2.ids (turn_of_step hstep),
        readsBlock_turn hc.2.reads (turn_of_step hstep)⟩)
    ⟨hinit, ⟨nodup_nil, .inl rfl, fun _ hs => absurd hs not_mem_nil⟩, fun _ =>
      rfl⟩ hcond hrun).1

theorem stream_eq_of_nodup (hn : (c.streams.map (·.streamId)).Nodup)
    (hs : s ∈ c.streams) (hs' : s' ∈ c.streams)
    (hid : s.streamId = s'.streamId) : s = s' :=
  inj_on_of_nodup_map hn hs hs' hid

end

-- ==== requests

/-- A request without header fields. -/
def plainRequest (method : Bytes) (body : Option Bytes) : NewRequest where
  accepted := true
  request := {
    method
    scheme := .https
    authority := ascii "a"
    path := ascii "/"
    protocol := none
    headers := []
    sendOwnExpect := false }
  body
  proceedReq := false
  sendOwnExpect := false
  informationalCb := false

/-- The application takes what it is given. -/
def acceptAll : Answers where
  informational := false
  onHead := true
  onBody := false
  consumed := 0
  room := 65536

end H2o.Http2Client
