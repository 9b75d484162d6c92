/-
The send queue of the HTTP/2 client, and what leaves it alone.

A stream waits in `sending_streams` until its data are sent, and in
`sent_streams` until they are written. Few functions link a stream. The others
only take closed streams out of the lists, and ask for a write when they append
to the output: `Steady` is what such a function does to the queue, and one more
preorder that has what is done when a stream fails or data are taken.
-/
import H2o.Http2Client.Proofs.Turn

namespace H2o.Http2Client

open Http2 Hpack Lib List

/-- A write is in flight or scheduled. -/
def Conn.busy (c : Conn) : Prop := c.sock ≠ .idle ∨ c.deferTimeout = true

instance (c : Conn) : Decidable c.busy := inferInstanceAs (Decidable (_ ∨ _))

/-- What the place of a stream in the queue depends on. -/
def Stream.queued (s : Stream) :=
  (s.streamId, s.outBuf, s.outWindow, s.sendOwnExpect, s.req)

/-- The stream is as it was, and may do no more than before. -/
structure Stream.Within (s' s : Stream) : Prop where
  queued : s'.queued = s.queued
  proceedReq : s'.proceedReq = true → s.proceedReq = true
  mayWrite : s'.mayWrite = true → s.mayWrite = true

/-- No stream is linked, streams that are unlinked are closed, and a write is
scheduled if there is more to write. -/
structure Steady (c c' : Conn) : Prop where
  alive : c'.alive = c.alive
  closing : c.state = .isClosing → c'.state = .isClosing
  outWindow : c'.outWindow = c.outWindow
  peerSettings : c'.peerSettings = c.peerSettings
  sock : c'.sock = c.sock
  inFlight : c'.inFlight = c.inFlight
  deferred : c.deferTimeout = true → c'.deferTimeout = true
  defers : c'.deferTimeout = true → c.deferTimeout = true ∨ c.sock = .idle
  output : c.outBuf ≠ [] → c'.outBuf ≠ []
  requests : c'.outBuf ≠ [] → c.outBuf ≠ [] ∨ c'.state = .isClosing ∨ c'.busy
  sending : c'.sending.Sublist c.sending
  sent : c'.sent.Sublist c.sent
  streams : ∀ s' ∈ c'.streams, ∃ s ∈ c.streams, s'.Within s ∧
    (s.streamId ∈ c.sending → s.streamId ∈ c'.sending)

section

variable {c c' c'' : Conn} {s s' s'' : Stream}

theorem Stream.Within.refl (s : Stream) : s.Within s := ⟨rfl, id, id⟩

theorem Stream.Within.trans (h : s''.Within s') (h' : s'.Within s) :
    s''.Within s where
  queued := h.queued.trans h'.queued
  proceedReq hp := h'.proceedReq (h.proceedReq hp)
  mayWrite hm := h'.mayWrite (h.mayWrite hm)

section

variable (h : s'.Within s)
include h

theorem Stream.Within.streamId : s'.streamId = s.streamId :=
  congrArg Prod.fst h.queued

theorem Stream.Within.outBuf : s'.outBuf = s.outBuf :=
  congrArg (·.2.1) h.queued

theorem Stream.Within.outWindow : s'.outWindow = s.outWindow :=
  congrArg (·.2.2.1) h.queued

theorem Stream.Within.sendOwnExpect :
    s'.sendOwnExpect = s.sendOwnExpect := congrArg (·.2.2.2.1) h.queued

theorem Stream.Within.req : s'.req = s.req := congrArg (·.2.2.2.2) h.queued

theorem Stream.Within.hasBytes : s'.hasBytes = s.hasBytes := by
  unfold Stream.hasBytes
  rw [h.outBuf]

end

theorem Steady.refl (c : Conn) : Steady c c where
  alive := rfl
  closing h := h
  outWindow := rfl
  peerSettings := rfl
  sock := rfl
  inFlight := rfl
  deferred h := h
  defers := .inl
  output h := h
  requests := .inl
  sending := .refl _
  sent := .refl _
  streams s hs := ⟨s, hs, .refl s, id⟩

/-- A write that is scheduled stays so. -/
theorem Steady.busy (h : Steady c c') (hc : c.busy) : c'.busy := by
  rcases hc with hc | hc
  · exact .inl (h.sock ▸ hc)
  · exact .inr (h.deferred hc)

/-- Steady changes compose. -/
theorem Steady.trans (h : Steady c c') (h' : Steady c' c'') :
    Steady c c'' where
  alive := h'.alive.trans h.alive
  closing hc := h'.closing (h.closing hc)
  outWindow := h'.outWindow.trans h.outWindow
  peerSettings := h'.peerSettings.trans h.peerSettings
  sock := h'.sock.trans h.sock
  inFlight := h'.inFlight.trans h.inFlight
  deferred hc := h'.deferred (h.deferred hc)
  defers hc := by
    rcases h'.defers hc with hc | hc
    · exact h.defers hc
    · exact .inr (h.sock ▸ hc)
  output hc := h'.output (h.output hc)
  requests hc := by
    rcases h'.requests hc with hc | hc
    · rcases h.requests hc with hc | hc | hc
      · exact .inl hc
      · exact .inr (.inl (h'.closing hc))
      · exact .inr (.inr (h'.busy hc))
    · exact .inr hc
  sending := h'.sending.trans h.sending
  sent := h'.sent.trans h.sent
  streams s'' hs'' := by
    obtain ⟨s', hs', hwithin', hlinked'⟩ := h'.streams s'' hs''
    obtain ⟨s, hs, hwithin, hlinked⟩ := h.streams s' hs'
    refine ⟨s, hs, hwithin'.trans hwithin, fun hmem => ?_⟩
    rw [← hwithin.streamId]
    apply hlinked'
    rw [hwithin.streamId]
    exact hlinked hmem

theorem Steady.log (l : Label) (c : Conn) : Steady c (c.log l) :=
  { Steady.refl c with }

/-- Streams may only lose what makes them wait. -/
theorem Steady.setStream {f : Stream → Stream} (hf : ∀ s, (f s).Within s)
    (streamId : Nat) (c : Conn) : Steady c (c.setStream streamId f) :=
  { Steady.refl c with
    streams := fun s' hs' => by
      obtain ⟨s, hs, ⟨-, rfl⟩ | ⟨-, rfl⟩⟩ := Conn.mem_setStream.1 hs'
      · exact ⟨s, hs, hf s, id⟩
      · exact ⟨s', hs, .refl s', id⟩ }

/-- A write is scheduled after it. -/
theorem requestWrite_busy (hc : c.state ≠ .isClosing) :
    (requestWrite c).busy := by
  unfold requestWrite
  rw [if_neg hc]
  split
  · exact .inr rfl
  next hbusy =>
    rw [not_and_or] at hbusy
    rcases hbusy with hbusy | hbusy
    · exact .inl hbusy
    · exact .inr (by simpa using hbusy)

theorem Steady.requestWrite (c : Conn) : Steady c (requestWrite c) := by
  unfold Http2Client.requestWrite
  split
  · exact .refl c
  · split
    next hidle =>
      exact { Steady.refl c with
        deferred := fun _ => rfl
        defers := fun _ => .inr hidle.1
        requests := .inl }
    · exact .refl c

theorem Steady.emitRequest (f : OutFrame) (c : Conn) :
    Steady c (Http2Client.requestWrite (c.emit f)) := by
  have hwrite := Steady.requestWrite (c.emit f)
  have hne : (c.emit f).outBuf ≠ [] := by simp [Conn.emit]
  refine { hwrite with
    output := fun _ => hwrite.output hne
    requests := fun _ => ?_ }
  by_cases hclosing : c.state = .isClosing
  · exact .inr (.inl (hwrite.closing hclosing))
  · exact .inr (.inr (requestWrite_busy hclosing))

/-- A function that goes on from there. -/
theorem Steady.then {γ : Type} {g : γ → Conn} {r : Except Fault γ}
    (h : Steady c c') (hr : Ensures (Steady c' <| g ·) r) :
    Ensures (Steady c <| g ·) r :=
  hr.imp fun _ h' => h.trans h'

-- ==== streams

variable {streamId : Nat}

/-- A stream that is closed is taken out of the lists. -/
theorem closeStream_eq (h : closeStream c streamId = .ok c') :
    ∃ b, c' = { c with
      streams := c.streams.filter fun s => s.streamId != streamId
      numStreams := c.numStreams - 1
      sending := c.sending.filter (· != streamId)
      sent := c.sent.filter (· != streamId)
      keepaliveTimeout := b
      trace := .closed streamId :: c.trace } := by
  have hlink : Ensures (fun c₁ => ∃ b,
      c₁ = { c.removeStream streamId with keepaliveTimeout := b })
      (unregisterStream c streamId) :=
    .ite (.error _) (.ite (.ite (.error _) (.ok ⟨_, rfl⟩)) (.ok ⟨_, rfl⟩))
  obtain ⟨c₁, h₁, h⟩ := except_bind_eq_ok.1 h
  obtain ⟨b, rfl⟩ := hlink c₁ h₁
  cases h
  exact ⟨b, rfl⟩

/-- A stream that goes leaves both lists. -/
theorem steady_closeStream : Ensures (Steady c) (closeStream c streamId) := by
  intro c' h
  obtain ⟨b, rfl⟩ := closeStream_eq h
  refine { Steady.refl c with
    sending := filter_sublist
    sent := filter_sublist
    streams := fun s hs => ?_ }
  obtain ⟨hs, hne⟩ := mem_filter.1 hs
  exact ⟨s, hs, .refl s, fun hmem => mem_filter.2 ⟨hmem, hne⟩⟩

/-- So errors of streams and data are steady. -/
theorem steadyWalk : DataWalk Steady where
  refl := .refl
  trans := .trans
  told := .setStream (by intro s; exact ⟨rfl, id, id⟩)
  stopped := .setStream (by intro s; exact ⟨rfl, nofun, id⟩)
  unlinked c := { Steady.refl c with }
  log _ := .log _
  emit _ := .emitRequest _
  close := steady_closeStream
  ended := .setStream (by intro s; exact ⟨rfl, id, id⟩)
  taken hf := .setStream fun s => by
    obtain ⟨_, _, _, hs⟩ := hf s
    rw [hs]
    exact ⟨rfl, id, id⟩
  inWindow _ c := { Steady.refl c with }
  onBody _ _ _ := .log _
  credit _ _ := .emitRequest _

theorem steady_closeResponse : Ensures (Steady c) (closeResponse c streamId) :=
  steadyWalk.closeResponse (steadyWalk.ended _ c)

-- ==== frames

variable {f : Frame} {ans : Answers}

theorem steady_onFinalHead {p : Parsed} {isEndStream : Bool} :
    Ensures (Steady c) (onFinalHead c s p isEndStream ans) :=
  steadyWalk.onFinalHead
    (fun _ _ _ => (Steady.setStream (by intro s; exact ⟨rfl, id, id⟩)
      _ c).trans (.log _ _))
    steady_closeResponse (.setStream (by intro s; exact ⟨rfl, id, id⟩) _)

/-- The frames that are quiet: RST_STREAM, PING and GOAWAY. -/
theorem steady_readFrame (hread : c.readFrame = .expectDefault)
    (htype : f.type = .rstStream ∨ f.type = .ping ∨ f.type = .goaway) :
    Ensures (Steady c ·.1) (readFrame c f ans) := by
  unfold readFrame
  rw [hread]
  unfold expectDefault
  dsimp only
  split
  · exact .ok (.refl c)
  next f' hf =>
    obtain ⟨rfl, -⟩ := decodeFrame_ok hf
    rcases htype with htype | htype | htype
    · rw [htype]
      exact steadyWalk.handleRstStreamFrame
    · rw [htype]
      exact .ok (steadyWalk.handlePingFrame f' c)
    · rw [htype]
      exact steadyWalk.handleGoawayFrame

end

end H2o.Http2Client
