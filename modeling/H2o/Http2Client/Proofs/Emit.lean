/-
What the HTTP/2 client does when it writes.

`emitStream_cases` says once what a turn of the loop of `do_emit_writereq` can
do: send a part of the buffer, or nothing, and then link the stream to one of
the lists or to none. Whatever else a function does that writes is quiet, so
that an invariant of the quiet changes and of the DATA frames (`Sends`) is one
of all these functions (`Writes`).

`RecvQuiet` keeps the responses and the windows for receiving. It is the change
of the functions that write, and of those that are given credit.
-/
import H2o.Http2Client.Proofs.Handlers

namespace H2o.Http2Client

open Http2 Lib

variable {room : Nat → Nat} {ans : Answers}

-- ==== the emit loop

/-- A turn of the loop leaves the stream and the buffer as they are. -/
def Holds (c : Conn) (s : Stream) (room : Nat) : Prop :=
  s.sendOwnExpect = true ∨ s.outBuf = none ∨ ∃ buf, s.outBuf = some buf ∧
    min (calcMaxPayloadSize c s room) buf.length = 0 ∧
    (s.proceedReq = true ∨ buf ≠ [])

/-- A turn of the loop sends `n` octets of the buffer. -/
structure Emits (c : Conn) (s : Stream) (room : Nat) (buf : Bytes) (n : Nat) :
    Prop where
  outBuf : s.outBuf = some buf
  expect : s.sendOwnExpect = false
  fits : n ≤ calcMaxPayloadSize c s room
  length : n ≤ buf.length
  ends : n = 0 → s.ends buf n = true

/-- What a turn of the loop does. -/
theorem emitStream_cases {c c' : Conn} {streamId : Nat}
    (h : emitStream room c streamId = .ok c') :
    ∃ s, c.getStream streamId = some s ∧ ((Holds c s (room streamId) ∧
          c' = linkEmitted (c.setStream streamId fun _ => s) s) ∨
        ∃ buf n, Emits c s (room streamId) buf n ∧ c' = linkEmitted
            ((emitData c s buf n (s.ends buf n)).setStream streamId fun _ =>
              s.consume buf n)
            (s.consume buf n)) := by
  unfold emitStream at h
  split at h
  · cases h
  next s hs =>
    refine ⟨s, hs, ?_⟩
    cases hbuf : s.outBuf with
    | none =>
      rw [hbuf] at h
      cases h
      exact .inl ⟨.inr (.inl hbuf), rfl⟩
    | some buf =>
      rw [hbuf] at h
      dsimp only at h
      split at h
      next hexpect =>
        cases h
        exact .inl ⟨.inl hexpect, rfl⟩
      next hexpect =>
        unfold streamEmitPendingData at h
        dsimp only at h
        split at h
        next hnone =>
          cases h
          refine .inl ⟨.inr (.inr ⟨buf, hbuf, hnone.1, ?_⟩), rfl⟩
          obtain ⟨hzero, hends⟩ := hnone
          cases hp : s.proceedReq with
          | true => exact .inl rfl
          | false =>
            right
            rintro rfl
            simp [Stream.ends, hp] at hends
        next hsome =>
          cases h
          refine .inr ⟨buf, _, ?_, rfl⟩
          exact {
            outBuf := hbuf
            expect := by simpa using hexpect
            fits := Nat.min_le_left _ _
            length := Nat.min_le_right _ _
            ends := fun hzero => by simpa [hzero] using hsome }

/-- No frame is longer than a window. -/
theorem calcMaxPayloadSize_le {c : Conn} {s : Stream} {room n : Nat}
    (hn : n ≤ calcMaxPayloadSize c s room) (hc : 0 ≤ c.outWindow)
    (hs : 0 ≤ s.outWindow) :
    (n : Int) ≤ c.outWindow ∧ (n : Int) ≤ s.outWindow ∧
      n ≤ c.peerSettings.maxFrameSize.toNat := by
  unfold calcMaxPayloadSize at hn
  split at hn
  · omega
  · split at hn
    · omega
    · have hwin : bufferWindow c room ≤ c.outWindow := min_le_right _ _
      omega

-- ==== writes

/-- A DATA frame is sent. -/
def Sends (c c' : Conn) : Prop :=
  ∃ s room buf n, c.getStream s.streamId = some s ∧ Emits c s room buf n ∧
    c' = (emitData c s buf n (s.ends buf n)).setStream s.streamId fun _ =>
      s.consume buf n

/-- DATA frames are sent, with quiet changes between them. -/
def Writes : Conn → Conn → Prop := Relation.ReflTransGen fun c c' =>
    Quiet c c' ∨ Sends c c'

section

variable {c c' : Conn} {streamId : Nat}

theorem Changes.writes (h : Quiet c c') : Writes c c' := .single (.inl h)

/-- Quiet changes and frames sent, in any order. -/
theorem Writes.trans {c'' : Conn} (h : Writes c c') (h' : Writes c' c'') :
    Writes c c'' :=
  Relation.ReflTransGen.trans h h'

/-- A function that goes on from there. -/
theorem Writes.then {γ : Type} {g : γ → Conn} {r : Except Fault γ}
    (h : Writes c c') (hr : Ensures (Writes c' <| g ·) r) :
    Ensures (Writes c <| g ·) r :=
  hr.imp fun _ h' => h.trans h'

theorem Writes.quiet {γ : Type} {g : γ → Conn} {r : Except Fault γ}
    (h : Writes c c') (hr : Ensures (Quiet c' <| g ·) r) :
    Ensures (Writes c <| g ·) r :=
  h.then (hr.imp fun _ h => h.writes)

/-- What the quiet changes and the DATA frames keep is kept. -/
theorem Writes.invariant {Inv : Conn → Prop}
    (hquiet : ∀ c c', Inv c → Quiet c c' → Inv c')
    (hsends : ∀ c c', Inv c → Sends c c' → Inv c')
    (h : Writes c c') (hc : Inv c) : Inv c' := by
  induction h with
  | refl => exact hc
  | tail _ hstep ih =>
    rcases hstep with hstep | hstep
    · exact hquiet _ _ ih hstep
    · exact hsends _ _ ih hstep

theorem quiet_linkEmitted (s : Stream) (c : Conn) :
    Quiet c (linkEmitted c s) := by
  unfold linkEmitted
  split
  · exact { (Changes.refl c : Quiet c c) with }
  · split
    · exact { (Changes.refl c : Quiet c c) with }
    · exact .refl c

/-- One stream's turn. -/
theorem writes_emitStream (h : emitStream room c streamId = .ok c') :
    Writes c c' := by
  obtain ⟨s, hs, ⟨-, rfl⟩ | ⟨buf, n, hemits, rfl⟩⟩ := emitStream_cases h
  · exact ((Changes.assign hs rfl rfl).trans (quiet_linkEmitted _ _)).writes
  · obtain rfl := (Conn.getStream_some hs).2
    have hsends : Sends c ((emitData c s buf n (s.ends buf n)).setStream
        s.streamId fun _ => s.consume buf n) :=
      ⟨s, _, buf, n, hs, hemits, rfl⟩
    exact Writes.trans (.single (.inr hsends)) (quiet_linkEmitted _ _).writes

/-- The whole loop. -/
theorem writes_doEmitWritereq :
    Ensures (Writes c) (doEmitWritereq c room) := by
  have hsending : Quiet c { c with sending := [] } :=
    { (Changes.refl c : Quiet c c) with }
  have hloop : Ensures (Writes { c with sending := [] })
      (c.sending.foldlM (emitStream room) { c with sending := [] }) :=
    fun _ h => run_rel (R := Writes) (fun _ => .refl) (fun h h' => h.trans h')
      (fun _ _ _ h => writes_emitStream h) h
  refine .ite (.error _) (.bind (hsending.writes.then hloop) fun c₁ h => ?_)
  exact h.quiet (.ite (.ok (.refl c₁)) (.ite (.error _)
    (.ok { (Changes.refl c₁ : Quiet c₁ c₁) with })))

theorem writes_undefer (c : Conn) :
    Writes c { c with deferTimeout := false } :=
  Changes.writes { (Changes.refl c : Quiet c c) with }

theorem writes_defer :
    Ensures (Writes c)
      (doEmitWritereq { c with deferTimeout := false } room) :=
  (writes_undefer c).then writes_doEmitWritereq

theorem writes_readDone : Ensures (Writes c) (readDone c room) :=
  .bind (.ite writes_defer (.ok .refl)) fun c₁ h =>
    .ok (h.trans (Changes.writes { (Changes.refl c₁ : Quiet c₁ c₁) with }))

theorem writes_emitClose : Ensures (Writes c) (do
      let c ← doEmitWritereq c room
      let (c, _) ← closeConnectionIfNecessary c
      .ok c) :=
  .bind writes_doEmitWritereq fun _ h =>
    .bind (h.quiet (g := Prod.fst) quiet_closeConnectionIfNecessary) fun _ h =>
      .ok h

theorem writes_writeNext : Ensures (Writes c) (writeNext c room) := by
  refine .ite (.ite (.error _) (.bind quiet_closeConnectionIfNecessary
    fun _ h => .ok h.writes)) (.ite (.ite (.error _) (.ok ?_))
    ((writes_undefer c).then writes_emitClose))
  exact Changes.writes { (Changes.refl c : Quiet c c) with }

/-- A write completes, and the next one begins. -/
theorem writes_onWriteComplete {err : Bool} {reactions : Nat → Reaction} :
    Ensures (Writes c) (onWriteComplete c err reactions room) := by
  have hidle : Quiet c { c with sock := .idle, ioTimeout := false } :=
    { (Changes.refl c : Quiet c c) with }
  refine .ite (.error _) (hidle.writes.then (.ite ?_ ?_))
  · refine .bind (.ite (.ok (.refl _))
      (quietWalk.callStreamCallbacksWithError (by decide))) ?_
    exact fun _ h => h.writes.quiet quiet_closeConnectionNow
  · have hclose := quiet_closeConnectionIfNecessary
      (c := { c with sock := .idle, ioTimeout := false })
    split
    · exact .error _
    next c₁ h₁ => exact .ok (hclose _ h₁).writes
    next c₁ h₁ =>
      refine .bind ((hclose _ h₁).then (quietWalk.foldlM
        (fun _ _ => quiet_completeStream) _ c₁)) fun c₂ h => ?_
      have hdone : Quiet _ { c₂ with inFlight := false } := { h with }
      exact hdone.writes.then writes_writeNext

theorem writes_onNotifyWrite {err : Bool} :
    Ensures (Writes c) (onNotifyWrite c err room) := by
  have hidle : Quiet c { c with sock := .idle } :=
    { (Changes.refl c : Quiet c c) with }
  refine hidle.writes.then (.ite ?_ writes_emitClose)
  exact .bind (quietWalk.callStreamCallbacksWithError (by decide)) fun _ h =>
    h.writes.quiet quiet_closeConnectionNow

end

-- ==== recv-quiet changes

/-- What does not count for the responses and the windows to receive. -/
def Label.recvQuiet : Label → Bool
  | sent (.data ..) => true
  | l => l.quiet

/-- What the response of a stream and its window to receive depend on. -/
def Stream.recvCore (s : Stream) :=
  (s.streamId, s.res, s.inWindow, s.status, s.headers, s.bodySize, s.remaining,
    s.messageBodyForbidden)

/-- All but the window and the settings for sending. -/
def Kept.exceptOutput (k : Kept) : Kept :=
  { k with outWindow := 0, peerSettings := .default }

abbrev RecvQuiet : Conn → Conn → Prop :=
  Changes Kept.exceptOutput Stream.recvCore Label.recvQuiet

section

variable {c c' : Conn} {streamId : Nat}

theorem Changes.recv (h : Quiet c c') : RecvQuiet c c' := by
  refine h.mono (fun _ _ => congrArg Kept.exceptOutput) (fun _ _ h => congrArg
    (fun p => (p.1, p.2.1, p.2.2.2)) h) ?_
  intro l hl
  unfold Label.recvQuiet
  split
  · rfl
  · exact hl

theorem recvWalk : Walk RecvQuiet := quietWalk.mono Changes.recv .trans

theorem recvQuiet_output (outWindow : Int) (peerSettings : Settings)
    (c : Conn) : RecvQuiet c { c with outWindow, peerSettings } :=
  { (Changes.refl c : RecvQuiet c c) with }

/-- To send data changes nothing that is received. -/
theorem recvQuiet_sends (h : Sends c c') : RecvQuiet c c' := by
  obtain ⟨s, room, buf, n, hs, -, rfl⟩ := h
  have hdata : RecvQuiet c (emitData c s buf n (s.ends buf n)) :=
    (Changes.emit rfl c).trans (recvQuiet_output _ c.peerSettings _)
  exact hdata.trans (Changes.assign hs rfl rfl)

theorem Writes.recv (h : Writes c c') : RecvQuiet c c' := by
  refine h.invariant ?_ ?_ (.refl c)
  · intro c₁ c₂ h₁ h₂
    exact h₁.trans h₂.recv
  · intro c₁ c₂ h₁ h₂
    exact h₁.trans (recvQuiet_sends h₂)

-- ==== credit

theorem Changes.requestWriteIfRoom {α β : Type} {keep : Kept → β}
    {part : Stream → α} {lab : Label → Bool} (room : Nat) (c : Conn) :
    Changes keep part lab c (requestWriteIfRoom c room) := by
  unfold Http2Client.requestWriteIfRoom
  split
  · exact .requestWrite c
  · exact .refl c

/-- An overflow is refused; else the window moves. -/
theorem updateStreamOutputWindow_cases {delta : Int} {updated : Bool}
    (h : updateStreamOutputWindow c streamId delta = .ok (c', updated)) :
    ∃ s, c.getStream streamId = some s ∧
      ((updated = false ∧ s.outWindow + delta > int32Max ∧ c' = c) ∨
        (updated = true ∧ ∃ sending, c' = { c.setStream streamId
          (fun t => { t with outWindow := s.outWindow + delta }) with
            sending })) := by
  unfold updateStreamOutputWindow at h
  split at h
  · cases h
  next s hs =>
    refine ⟨s, hs, ?_⟩
    unfold windowUpdate at h
    split at h
    next hnone =>
      cases h
      split at hnone
      next hgt => exact .inl ⟨rfl, hgt, rfl⟩
      · cases hnone
    next after hsome =>
      right
      split at hsome
      · cases hsome
      · cases hsome
        dsimp only at h
        split at h
        · cases h
          exact ⟨rfl, _, rfl⟩
        · cases h
          exact ⟨rfl, c.sending, rfl⟩

theorem recvQuiet_updateStreamOutputWindow {delta : Int} :
    Ensures (RecvQuiet c ·.1) (updateStreamOutputWindow c streamId delta) := by
  unfold updateStreamOutputWindow
  split
  · exact .error _
  · split
    · exact .ok (.refl c)
    next after _ =>
      have hset : RecvQuiet c (c.setStream streamId fun s =>
          { s with outWindow := after }) :=
        .setStream (by intro s; exact ⟨rfl, rfl⟩) _ c
      exact .ite (.ok { hset with }) (.ok hset)

/-- Settings change what is sent only. -/
theorem recvQuiet_applySettings {settings : Settings} :
    Ensures (RecvQuiet c) (applySettings c settings ans) := by
  have hack : RecvQuiet c
      (requestWrite ({ c with peerSettings := settings }.emit .settingsAck)) :=
    (recvQuiet_output c.outWindow settings c).trans (.emitRequest rfl _)
  refine .ite (.bind (hack.then (recvWalk.foldlM (fun c id => ?_) _ _))
    fun _ h =>
    .ok (h.trans (.requestWriteIfRoom _ _))) (.ok hack)
  exact .bind recvQuiet_updateStreamOutputWindow fun _ h => .ok h

theorem recvQuiet_handleSettingsFrame {f : Frame} :
    Ensures (RecvQuiet c ·.1) (handleSettingsFrame c f ans) := by
  refine .ite (.ok (.refl c)) (.ite (.ite (.ok (.refl c)) (.ok (.refl c))) ?_)
  split
  · exact .ok (recvQuiet_output c.outWindow _ c)
  · exact .bind recvQuiet_applySettings fun _ h => .ok h

theorem recvQuiet_handleWindowUpdateFrame {f : Frame} :
    Ensures (RecvQuiet c ·.1) (handleWindowUpdateFrame c f ans) := by
  unfold handleWindowUpdateFrame
  split
  · exact .bind quiet_rejectWindowUpdate fun _ h => .ok h.recv
  · exact .ok (.refl c)
  · refine .ite ?_ (.ite ?_ (.ok (.refl c)))
    · split
      · exact .ok (.refl c)
      · exact .ok ((recvQuiet_output _ c.peerSettings c).trans
          (.requestWriteIfRoom _ _))
    · split
      · exact .ok (.requestWriteIfRoom _ c)
      · exact .bind (.bind recvQuiet_updateStreamOutputWindow fun _ h =>
          .ite (.ok (h.trans (.requestWriteIfRoom _ _)))
            (h.then (recvWalk.resetStream (by decide)))) fun _ h => .ok h

end

end H2o.Http2Client
