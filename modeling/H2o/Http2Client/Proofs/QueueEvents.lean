/-
What the events do to the send queue of the HTTP/2 client: the end of a
connection, the writes of the application, `on_write_complete`, new streams,
and the frames that raise a window.
-/
import H2o.Http2Client.Proofs.Drain

namespace H2o.Http2Client

open Http2 Lib List

variable {room : Nat → Nat} {ans : Answers} {chunk : Bytes}
  {isEndStream : Bool} {reactions : Nat → Reaction} {f : Stream → Stream}

section

variable {c c' : Conn} {streamId : Nat} {s : Stream}

-- ==== the end of a connection

/-- A connection that is closed has no lists. -/
theorem queueInv_closeConnectionNow (hlinked : Linked [] c)
    (hframe : 0 < c.peerSettings.maxFrameSize.toNat) :
    Ensures QueueInv (closeConnectionNow c) := by
  refine .bind (steadyWalk.foldlM (fun _ _ => steady_closeStream) _ c)
    fun c₁ h =>
    .ite (.error _) (.ok ?_)
  refine ⟨(hlinked.of_steady h).congr rfl id rfl rfl, h.peerSettings ▸ hframe,
    ?_, ?_, ?_, ?_⟩
  · intro hcontra
    cases hcontra
  all_goals
    intro halive
    cases halive

theorem queueInv_isClosing (hc : QueueInv c) :
    QueueInv { c with state := .isClosing } where
  linked := hc.linked.congr rfl id rfl rfl
  frameSize := hc.frameSize
  defers := hc.defers
  sent _ hopen := absurd rfl hopen
  output _ hopen := absurd rfl hopen
  blocked _ hopen := absurd rfl hopen

theorem queueInv_closeConnection (hc : QueueInv c) :
    Ensures QueueInv (closeConnection c) :=
  have hclosing := queueInv_isClosing hc
  .ite (.ok hclosing)
    (queueInv_closeConnectionNow hclosing.linked hclosing.frameSize)

theorem closeConnectionIfNecessary_false
    (h : closeConnectionIfNecessary c = .ok (c', false)) : c' = c := by
  unfold closeConnectionIfNecessary at h
  split at h
  · obtain ⟨c₁, h₁, h⟩ := except_bind_eq_ok.1 h
    cases h
  next hopen =>
    cases h
    unfold Conn.closeIfIdle at hopen ⊢
    split
    next hidle => simp [hidle] at hopen
    · rfl

/-- The same when it is closed after a write. -/
theorem queueInv_closed (hlinked : Linked [] c)
    (hframe : 0 < c.peerSettings.maxFrameSize.toNat)
    (h : closeConnectionIfNecessary c = .ok (c', true)) : QueueInv c' := by
  have hidle : Linked [] c.closeIfIdle ∧ c.closeIfIdle.peerSettings =
      c.peerSettings := by
    unfold Conn.closeIfIdle
    split
    · exact ⟨hlinked.congr rfl id rfl rfl, rfl⟩
    · exact ⟨hlinked, rfl⟩
  have hclose : Ensures (fun r => r.2 = true → QueueInv r.1)
      (closeConnectionIfNecessary c) :=
    .ite (.bind (queueInv_closeConnectionNow hidle.1 (hidle.2 ▸ hframe))
      fun _ h => .ok fun _ => h) (.ok fun hcontra => by cases hcontra)
  exact hclose _ h rfl

theorem queueInv_closeConnectionIfNecessary (hc : QueueInv c) :
    Ensures (QueueInv ·.1) (closeConnectionIfNecessary c) := by
  rintro ⟨c', b⟩ h
  cases b with
  | true => exact queueInv_closed hc.linked hc.frameSize h
  | false =>
    rw [closeConnectionIfNecessary_false h]
    exact hc

/-- A turn of the loop, then the end if it is due. -/
theorem queueInv_emitClose (hlinked : Linked [] c)
    (hframe : 0 < c.peerSettings.maxFrameSize.toNat)
    (hdefer : c.deferTimeout = false)
    (hsent : c.alive = true → c.state ≠ .isClosing → c.sent = []) :
    Ensures QueueInv (do
      let c ← doEmitWritereq c room
      let (c, _) ← closeConnectionIfNecessary c
      .ok c) :=
  .bind (fun _ => queueInv_doEmitWritereq hlinked hframe hdefer hsent)
    fun _ h =>
    .bind (queueInv_closeConnectionIfNecessary h) fun _ h => .ok h

-- ==== application

/-- A stream is in one list only. -/
theorem insertSending_eq (h : c.insertSending streamId = .ok c') :
    streamId ∉ c.sending ++ c.sent ∧
      c' = { c with sending := c.sending ++ [streamId] } := by
  unfold Conn.insertSending at h
  split at h
  · cases h
  next hfree =>
    cases h
    simpa [Conn.isSendingLinked] using hfree

/-- The streams of an id do not wait for a response of status 100. -/
def Goes (streamId : Nat) (c : Conn) : Prop :=
  ∀ s ∈ c.streams, s.streamId = streamId → s.sendOwnExpect = false

theorem Goes.of_steady (hc : Goes streamId c) (h : Steady c c') :
    Goes streamId c' := by
  intro s' hs' hid
  obtain ⟨s, hs, hwithin, -⟩ := h.streams s' hs'
  rw [hwithin.sendOwnExpect]
  exact hc s hs (hwithin.streamId ▸ hid)

theorem Goes.setStream {id : Nat} (hc : Goes streamId c)
    (hf : ∀ s, (f s).streamId = s.streamId ∧ (f s).sendOwnExpect =
      s.sendOwnExpect) :
    Goes streamId (c.setStream id f) := by
  intro s' hs' hid
  obtain ⟨s, hs, ⟨-, rfl⟩ | ⟨-, rfl⟩⟩ := Conn.mem_setStream.1 hs'
  · rw [(hf s).2]
    exact hc s hs ((hf s).1 ▸ hid)
  · exact hc s' hs hid

/-- A chunk, or the end, is something to send. -/
theorem chunkOk_hasOutput {buf : Bytes}
    (hok : chunkOk chunk isEndStream = true)
    (hexpect : s.sendOwnExpect = false) :
    ({ s with
      proceedReq := !isEndStream
      outBuf := some (buf ++ chunk)
      mayWrite := false } : Stream).hasOutput := by
  cases isEndStream with
  | true => exact .inr ⟨rfl, hexpect, rfl⟩
  | false =>
    left
    cases chunk with
    | nil => cases hok
    | cons x chunk =>
      cases buf with
      | nil => rfl
      | cons y buf => rfl

/-- `do_write_req` up to the request of a write. -/
theorem linked_doWriteReq (hc : Linked [] c)
    (hok : chunkOk chunk isEndStream = true) (hgoes : Goes streamId c)
    (h : doWriteReq c streamId chunk isEndStream = .ok c') :
    ∃ c₁, c' = requestWrite c₁ ∧ Linked [] c₁ ∧ Goes streamId c₁ ∧
      c₁.schedule = c.schedule ∧ c₁.sent = c.sent := by
  unfold doWriteReq at h
  split at h
  · cases h
  split at h
  · cases h
  obtain ⟨c₁, h₁, h⟩ := except_bind_eq_ok.1 h
  obtain ⟨hfree, rfl⟩ := insertSending_eq h₁
  cases h
  refine ⟨_, rfl, ?_, ?_, rfl, rfl⟩
  · refine hc.insert rfl id hfree rfl rfl (fun s hid => hid) fun s hs hid => ?_
    have hexpect := hgoes s hs hid
    refine ⟨.inl (chunkOk_hasOutput hok hexpect), fun hcontra => ?_⟩
    rw [hexpect] at hcontra
    cases hcontra
  · exact Goes.setStream hgoes fun _ => ⟨rfl, rfl⟩

theorem schedule_peerSettings (h : c'.schedule = c.schedule) :
    c'.peerSettings = c.peerSettings := congrArg (fun t => t.2.2.2.2) h

-- ==== on_write_complete

/-- What the loop of `on_write_complete` keeps besides. -/
structure Completes (c c' : Conn) : Prop where
  peerSettings : c'.peerSettings = c.peerSettings
  sent : c'.sent.Sublist c.sent

theorem Steady.completes (h : Steady c c') : Completes c c' :=
  ⟨h.peerSettings, h.sent⟩

theorem Completes.trans {c'' : Conn} (h : Completes c c')
    (h' : Completes c' c'') : Completes c c'' :=
  ⟨h'.peerSettings.trans h.peerSettings, h'.sent.trans h.sent⟩

/-- The stream is changed in what the queue does not depend on. -/
theorem Linked.assign (hc : Linked [] c) (hgoes : Goes streamId c)
    (hf : ∀ s, (f s).streamId = s.streamId ∧ (f s).outBuf = s.outBuf ∧
      (f s).outWindow = s.outWindow ∧ (f s).sendOwnExpect = s.sendOwnExpect ∧
      (f s).proceedReq = s.proceedReq) :
    Linked [] (c.setStream streamId f) := by
  refine hc.change rfl id (fun x _ => Iff.rfl) (fun x _ =>
    id) hc.once fun t ht hid => ?_
  obtain ⟨hstream, hbuf, hwindow, hexpect, hproceed⟩ := hf t
  have hbytes : (f t).hasBytes = t.hasBytes := by
    unfold Stream.hasBytes
    rw [hbuf]
  have hplace := hc.placed t ht
  refine ⟨?_, ?_, ?_, fun hcontra => ?_⟩
  · rw [hbytes, hstream, hwindow, hexpect]
    exact hplace.bytes
  · unfold Stream.hasOutput
    rw [hstream, hbytes, hproceed, hexpect, hbuf]
    exact hplace.output
  · rw [hbytes, hstream]
    exact hplace.sentEmpty
  · rw [hexpect, hgoes t ht hid] at hcontra
    cases hcontra

/-- The application is asked for more. -/
theorem linked_proceedReqOf {reaction : Reaction} (hc : Linked [] c)
    (hgoes : Goes s.streamId c) :
    Ensures (fun c' => Linked [] c' ∧ Goes s.streamId c' ∧ Completes c c')
      (proceedReqOf c s reaction) := by
  have hcall : Linked [] ((c.setStream s.streamId fun s =>
      { s with mayWrite := true }).log (.proceed s.streamId none)) :=
    (hc.assign (f := fun s => { s with mayWrite := true }) hgoes
      fun _ => ⟨rfl, rfl, rfl, rfl, rfl⟩).congr rfl id rfl rfl
  have hgoes' : Goes s.streamId ((c.setStream s.streamId fun s =>
      { s with mayWrite := true }).log (.proceed s.streamId none)) :=
    Goes.setStream hgoes fun _ => ⟨rfl, rfl⟩
  refine .ite ?_ (.ok ⟨hc, hgoes, rfl, .refl _⟩)
  cases reaction with
  | wait => exact .ok ⟨hcall, hgoes', rfl, .refl _⟩
  | writeReq chunk isEndStream =>
    refine .dite (fun hok c' h => ?_) fun _ =>
      .ok ⟨hcall, hgoes', rfl, .refl _⟩
    obtain ⟨c₁, rfl, hlinked, hgoes₁, hschedule, hsent⟩ :=
      linked_doWriteReq hcall hok hgoes' h
    have hsteady := Steady.requestWrite c₁
    have hcompletes : Completes c c₁ :=
      ⟨schedule_peerSettings hschedule, hsent ▸ .refl _⟩
    exact ⟨hlinked.of_steady hsteady, Goes.of_steady hgoes₁ hsteady,
      hcompletes.trans hsteady.completes⟩
  | cancel =>
    exact steadyWalk.giveUp.imp fun _ h => ⟨hcall.of_steady h,
      Goes.of_steady hgoes' h, h.peerSettings, h.sent⟩

theorem steady_linkFirstByteTimeout :
    Ensures (Steady c) (linkFirstByteTimeout c s) :=
  .ite (.error _) (.ok (.setStream (by intro s; exact ⟨rfl, id, id⟩) _ c))

/-- A request that is sent waits for the response. -/
theorem linked_finishRequest (hc : Linked [] c) (hgoes : Goes streamId c) :
    Ensures (fun c' => Linked [] c' ∧ Completes c c')
      (finishRequest c streamId) := by
  unfold finishRequest
  split
  · exact .ok ⟨hc, rfl, .refl _⟩
  · have hset : Linked [] (c.setStream streamId fun s =>
        { s with req := .closed }) :=
      hc.assign hgoes fun _ => ⟨rfl, rfl, rfl, rfl, rfl⟩
    exact .ite (steady_linkFirstByteTimeout.imp fun _ h =>
      ⟨hset.of_steady h, h.peerSettings, h.sent⟩) (.ok ⟨hc, rfl, .refl _⟩)

/-- A stream leaves `sent_streams`. -/
theorem linked_completeStream (hids : OwnIds c) (hc : Linked [] c) :
    Ensures (fun c' => Linked [] c' ∧ c'.peerSettings = c.peerSettings ∧
      c'.sent.Sublist (c.sent.filter (· != streamId)))
      (completeStream reactions c streamId) := by
  have hunlink : Linked []
      { c with sent := c.sent.filter (· != streamId) } := by
    have hsublist : (c.sent.filter (· != streamId)).Sublist c.sent :=
      filter_sublist
    refine ⟨hc.once.sublist ((List.Sublist.refl _).append
      ((List.Sublist.refl _).append hsublist)), fun s hs => ?_⟩
    have hplace := hc.placed s hs
    exact { hplace with
      sentEmpty := fun hmem => hplace.sentEmpty (hsublist.mem hmem) }
  unfold completeStream
  dsimp only
  split
  · exact .error _
  next s hs =>
    refine .dite (fun _ => steady_linkFirstByteTimeout.imp fun _ h =>
      ⟨hunlink.of_steady h, h.peerSettings, h.sent⟩) fun hwait => ?_
    obtain ⟨hmem, rfl⟩ := Conn.getStream_some hs
    have hgoes : Goes s.streamId
        { c with sent := c.sent.filter (· != s.streamId) } := by
      intro t ht hid
      obtain rfl := stream_eq_of_nodup hids.nodup ht hmem hid
      cases hexpect : t.sendOwnExpect with
      | false => rfl
      | true =>
        exact absurd ⟨hexpect, ((hc.placed t ht).expects hexpect).1⟩ hwait
    refine .bind (linked_proceedReqOf hunlink hgoes) fun c₁ h₁ => ?_
    refine (linked_finishRequest h₁.1 h₁.2.1).imp fun c' h => ?_
    have hboth := h₁.2.2.trans h.2
    exact ⟨h.1, hboth.peerSettings, hboth.sent⟩

/-- The loop takes every stream out of `sent_streams`. -/
theorem linked_completeLoop {ids : List Nat} (hids : OwnIds c)
    (hc : Linked [] c) (h : ids.foldlM (completeStream reactions) c = .ok c') :
    Linked [] c' ∧ c'.peerSettings = c.peerSettings ∧ ∀ x ∈ c'.sent,
      x ∈ c.sent ∧ x ∉ ids := by
  induction ids generalizing c with
  | nil =>
    cases Except.ok.inj h
    exact ⟨hc, rfl, fun x hx => ⟨hx, by simp⟩⟩
  | cons id ids ih =>
    obtain ⟨c₁, h₁, h⟩ := except_bind_eq_ok.1 h
    obtain ⟨hlinked₁, hsettings₁, hsent₁⟩ :=
      linked_completeStream hids hc c₁ h₁
    have hids₁ : OwnIds c₁ :=
      hids.of_quiet (RecvQuiet.ids (quiet_completeStream _ h₁).recv)
    obtain ⟨hlinked, hsettings, hsent⟩ := ih hids₁ hlinked₁ h
    refine ⟨hlinked, hsettings.trans hsettings₁, fun x hx => ?_⟩
    obtain ⟨hmem, hnot⟩ := hsent x hx
    obtain ⟨hmem, hne⟩ := mem_filter.1 (hsent₁.mem hmem)
    refine ⟨hmem, ?_⟩
    rw [mem_cons, not_or]
    exact ⟨by simpa using hne, hnot⟩

/-- What came meanwhile is written next. -/
theorem queueInv_writeNext (hlinked : Linked [] c)
    (hframe : 0 < c.peerSettings.maxFrameSize.toNat) (hsent : c.sent = []) :
    Ensures QueueInv (writeNext c room) := by
  have hlinked' : Linked [] { c with deferTimeout := false } :=
    hlinked.congr rfl id rfl rfl
  refine .dite (fun hempty => .dite (fun _ => .error _) fun hdefer => ?_)
    fun _ => .ite (.ite (.error _) (.ok ?_))
      (queueInv_emitClose hlinked' hframe rfl fun _ _ => hsent)
  · have hc : QueueInv c :=
      ⟨hlinked, hframe, fun hcontra => absurd hcontra hdefer,
        fun _ _ hne => absurd hsent hne, fun _ _ hne => absurd hempty.1 hne,
        fun _ _ hne => absurd hempty.2 hne⟩
    exact .bind (queueInv_closeConnectionIfNecessary hc) fun _ h => .ok h
  · have hbusy : SocketWrite.notify ≠ .idle := by decide
    exact ⟨hlinked'.congr rfl id rfl rfl, hframe,
      fun hcontra => (by cases hcontra), fun _ _ hne => absurd hsent hne,
      fun _ _ _ => .inl hbusy, fun _ _ _ => .inl (.inl hbusy)⟩

/-- All streams of the write are done with. -/
theorem queueInv_onWriteComplete {err : Bool} (hids : OwnIds c)
    (hc : QueueInv c) :
    Ensures QueueInv (onWriteComplete c err reactions room) := by
  have hlinked : Linked [] { c with sock := .idle, ioTimeout := false } :=
    hc.linked.congr rfl id rfl rfl
  refine .ite (.error _) (.ite ?_ ?_)
  · refine .bind (P := Steady { c with sock := .idle, ioTimeout := false })
      (.ite (.ok (.refl _))
        (steadyWalk.callStreamCallbacksWithError (by decide))) fun c₁ h => ?_
    exact queueInv_closeConnectionNow (hlinked.of_steady h)
      (h.peerSettings ▸ hc.frameSize)
  · split
    · exact .error _
    next c₁ hclose => exact .ok (queueInv_closed hlinked hc.frameSize hclose)
    next c₁ hclose =>
      obtain rfl := closeConnectionIfNecessary_false hclose
      have hids : OwnIds { c with sock := .idle, ioTimeout := false } :=
        { hids with }
      refine .bind (fun _ => linked_completeLoop hids hlinked) fun c₂ h => ?_
      obtain ⟨hlinked₂, hsettings, hsent⟩ := h
      have hnone : c₂.sent = [] := by
        rw [eq_nil_iff_forall_not_mem]
        intro x hx
        obtain ⟨hmem, hnot⟩ := hsent x hx
        exact hnot hmem
      exact queueInv_writeNext (c := { c₂ with inFlight := false })
        (hlinked₂.congr rfl id rfl rfl) (hsettings ▸ hc.frameSize) hnone

theorem queueInv_onNotifyWrite {err : Bool} (hc : QueueInv c)
    (hsock : c.sock = .notify) :
    Ensures QueueInv (onNotifyWrite c err room) := by
  have hlinked : Linked [] { c with sock := .idle } :=
    hc.linked.congr rfl id rfl rfl
  refine .ite (.bind (steadyWalk.callStreamCallbacksWithError (by decide))
    fun c₁ h =>
    queueInv_closeConnectionNow (hlinked.of_steady h)
      (h.peerSettings ▸ hc.frameSize))
    (queueInv_emitClose hlinked hc.frameSize ?_ ?_)
  · cases hdefer : c.deferTimeout with
    | false => rfl
    | true =>
      have hidle := hc.defers hdefer
      rw [hsock] at hidle
      cases hidle
  · intro halive hopen
    by_contra hne
    have hwriting := hc.sent halive hopen hne
    rw [hsock] at hwriting
    cases hwriting

theorem queueInv_deferred (hc : QueueInv c) (hdefer : c.deferTimeout = true)
    (h : doEmitWritereq { c with deferTimeout := false } room = .ok c') :
    QueueInv c' := by
  have hlinked : Linked [] { c with deferTimeout := false } :=
    hc.linked.congr rfl id rfl rfl
  refine queueInv_doEmitWritereq hlinked hc.frameSize rfl (fun halive hopen =>
    ?_) h
  by_contra hne
  have hwriting := hc.sent halive hopen hne
  rw [hc.defers hdefer] at hwriting
  cases hwriting

-- ==== new streams

/-- A new stream is in no list. -/
theorem linked_registerStream {s : Stream} (hc : Linked [] c)
    (hfree : s.streamId ∉ c.sending ++ c.sent) (hbytes : s.hasBytes = false)
    (hexpect : s.sendOwnExpect = false) : Linked [] (registerStream c s) := by
  rw [mem_append, not_or] at hfree
  refine ⟨hc.once, fun t ht => ?_⟩
  rcases mem_append.1 ht with ht | ht
  · have hplace := hc.placed t (mem_filter.1 ht).1
    exact { hplace with }
  obtain rfl := mem_singleton.1 ht
  refine ⟨fun hcontra => ?_, fun hmem => ?_, fun _ => hbytes,
    fun hcontra => ?_⟩
  · rw [hbytes] at hcontra
    cases hcontra
  · rcases hmem with hmem | hmem
    · cases hmem
    · exact absurd hmem hfree.1
  · rw [hexpect] at hcontra
    cases hcontra

/-- A stream that the application does not want leaves nothing behind. -/
theorem steady_registerClose {l l' : Label}
    (h : closeStream (((registerStream c s).log l).log l') s.streamId =
      .ok c') : Steady c c' := by
  obtain ⟨b, rfl⟩ := closeStream_eq h
  refine { Steady.refl c with
    sending := filter_sublist
    sent := filter_sublist
    streams := fun t ht => ?_ }
  obtain ⟨ht, hne⟩ := mem_filter.1 ht
  rcases mem_append.1 ht with ht | ht
  · refine ⟨t, (mem_filter.1 ht).1, .refl t, fun hmem => ?_⟩
    exact mem_filter.2 ⟨hmem, hne⟩
  · rw [mem_singleton.1 ht] at hne
    simp at hne

theorem queueInv_onConnectionReady {r : NewRequest} (hc : QueueInv c) :
    Ensures QueueInv (onConnectionReady c r) := by
  refine .ite (fun _ h => hc.of_steady (steady_registerClose h)) ?_
  intro c' h
  obtain ⟨c₁, h₁, h⟩ := except_bind_eq_ok.1 h
  cases h
  obtain ⟨hfree, rfl⟩ := insertSending_eq h₁
  have hfree : c.nextStreamId ∉ c.sending ++ c.sent := hfree
  have hregister := linked_registerStream
    (s := setupStream c.ctx c.nextStreamId r.informationalCb) hc.linked hfree
    rfl rfl
  refine queueInv_requestWrite ?_ hc.frameSize hc.defers hc.sent
  refine hregister.insert (f := fun _ => r.setup c
      (setupStream c.ctx c.nextStreamId r.informationalCb)) rfl ?_ hfree rfl
    rfl (fun s _ => rfl) fun s hs hid => ⟨.inr ?_, ?_⟩
  · simp [Conn.emit]
  · simp [Conn.emit]
  · intro hexpect
    have hexpect : (r.sendOwnExpect &&
        (r.proceedReq || !(r.body.getD []).isEmpty)) = true :=
      hexpect
    rw [Bool.and_eq_true, Bool.or_eq_true] at hexpect
    refine ⟨?_, rfl⟩
    show (if r.proceedReq ∨ r.body.isSome then StreamState.body else .closed) =
      .body
    refine if_pos ?_
    rcases hexpect.2 with hproceed | hbody
    · exact .inl hproceed
    · cases hb : r.body with
      | none => simp [hb] at hbody
      | some body => exact .inr rfl

-- ==== SETTINGS, WINDOW_UPDATE

/-- What an output window of a stream is raised to. -/
theorem linked_updateStreamOutputWindow {delta : Int} {b : Bool}
    (hids : OwnIds c) (hc : Linked [] c)
    (h : updateStreamOutputWindow c streamId delta = .ok (c', b)) :
    Linked [] c' ∧ c' =
      { c with streams := c'.streams, sending := c'.sending } := by
  unfold updateStreamOutputWindow at h
  split at h
  · cases h
  next s hs =>
    obtain ⟨hmem, hstream⟩ := Conn.getStream_some hs
    split at h
    · cases h
      exact ⟨hc, rfl⟩
    next after _ =>
      dsimp only at h
      split at h
      next hinsert =>
        cases h
        refine ⟨?_, rfl⟩
        have hfree : c.isSendingLinked streamId = false := hinsert.2.2
        have hfree : streamId ∉ c.sending ++ c.sent := by
          simpa [Conn.isSendingLinked] using hfree
        refine hc.insert (f := fun s => { s with outWindow := after }) rfl id
          hfree rfl rfl (fun s hid => hid) fun t ht hid => ⟨.inl (.inl ?_), ?_⟩
        · obtain rfl := stream_eq_of_nodup hids.nodup ht hmem
            (hid.trans hstream.symm)
          exact hinsert.2.1
        · exact (hc.placed t ht).expects
      next hno =>
        cases h
        refine ⟨?_, rfl⟩
        refine hc.change rfl id (fun x _ => Iff.rfl) (fun x _ =>
          id) hc.once fun t ht hid => ?_
        obtain rfl := stream_eq_of_nodup hids.nodup ht hmem
          (hid.trans hstream.symm)
        have hplace := hc.placed t ht
        refine { hplace with bytes := fun hbytes => ?_ }
        have hbytes : t.hasBytes = true := hbytes
        by_cases hwindow : after ≤ 0
        · exact .inr (.inl hwindow)
        -- the stream is linked, and not to `sent_streams`
        have hlinked : c.isSendingLinked streamId = true := by
          by_contra hfree
          have hfree : c.isSendingLinked streamId = false := by
            simpa using hfree
          exact hno ⟨by omega, hbytes, hfree⟩
        simp only [Conn.isSendingLinked, decide_eq_true_eq] at hlinked
        rcases hlinked with hsending | hsent
        · exact .inl (.inr (hid ▸ hsending))
        · have hempty := hplace.sentEmpty (hid ▸ hsent)
          rw [hbytes] at hempty
          cases hempty

/-- All streams, one by one. -/
theorem linked_updateWindows {delta : Int} {ids : List Nat} (hids : OwnIds c)
    (hc : Linked [] c) (h : ids.foldlM (fun c streamId => do
      let (c, _) ← updateStreamOutputWindow c streamId delta
      .ok c) c = .ok c') :
    Linked [] c' ∧ c' =
      { c with streams := c'.streams, sending := c'.sending } := by
  induction ids generalizing c with
  | nil =>
    cases Except.ok.inj h
    exact ⟨hc, rfl⟩
  | cons id ids ih =>
    obtain ⟨c₁, h₁, h⟩ := except_bind_eq_ok.1 h
    obtain ⟨⟨c₂, b⟩, h₂, h₁⟩ := except_bind_eq_ok.1 h₁
    cases h₁
    obtain ⟨hlinked₁, heq₁⟩ := linked_updateStreamOutputWindow hids hc h₂
    have hids₁ : OwnIds c₁ :=
      hids.of_quiet (RecvQuiet.ids (recvQuiet_updateStreamOutputWindow _ h₂))
    obtain ⟨hlinked, heq⟩ := ih hids₁ hlinked₁ h
    refine ⟨hlinked, ?_⟩
    rw [heq, heq₁]

/-- A window has grown, and nothing else but the lists is changed. -/
theorem queueInv_ifRoom {room : Nat} (hc : QueueInv c) (hlinked : Linked [] c')
    (heq : c' = { c with streams := c'.streams, sending := c'.sending }) :
    QueueInv (requestWriteIfRoom c' room) := by
  refine queueInv_requestWriteIfRoom hlinked ?_ ?_ ?_ ?_
  · rw [heq]
    exact hc.frameSize
  · rw [heq]
    exact hc.defers
  · rw [heq]
    exact hc.sent
  · rw [heq]
    exact hc.output

theorem frameSize_set {t : Settings} {identifier : UInt16} {value : UInt32}
    (ht : 0 < t.maxFrameSize.toNat) :
    Ensures (0 < ·.maxFrameSize.toNat) (t.set identifier value) := by
  unfold Settings.set
  split
  · exact .ok ht
  · exact .ite (.ok ht) (.error _)
  · exact .ok ht
  · exact .ite (.ok ht) (.error _)
  · refine .dite (fun hrange => .ok ?_) fun _ => .error _
    have hlow : (16384 : UInt32).toNat ≤ value.toNat :=
      UInt32.le_iff_toNat_le.1 hrange.1
    have hsize : (16384 : UInt32).toNat = 16384 := rfl
    show 0 < value.toNat
    omega
  · exact .ok ht

/-- The frame size that the peer accepts is positive. -/
theorem frameSize_updatePeerSettings {t : Settings} (src : Bytes)
    (ht : 0 < t.maxFrameSize.toNat) :
    0 < (updatePeerSettings t src).1.maxFrameSize.toNat := by
  fun_induction updatePeerSettings t src with
  | case1 t a b c d e f src err hset => exact ht
  | case2 t a b c d e f src t' hset ih => exact ih (frameSize_set ht t' hset)
  | case3 t => exact ht
  | case4 t src _ _ => exact ht

section

variable (hids : OwnIds c) (hc : QueueInv c)
include hids hc

/-- A larger initial window lets streams go on. -/
theorem queueInv_handleSettingsFrame {f : Frame} :
    Ensures (QueueInv ·.1) (handleSettingsFrame c f ans) := by
  refine .ite (.ok hc) (.ite (.ite (.ok hc) (.ok hc)) ?_)
  have hframe := frameSize_updatePeerSettings f.payload hc.frameSize
  split
  next settings err hset =>
    rw [hset] at hframe
    exact .ok { hc with
      linked := hc.linked.congr rfl id rfl rfl
      frameSize := hframe }
  next settings hset =>
    rw [hset] at hframe
    refine .bind ?_ fun _ h => .ok h
    have hack : QueueInv (requestWrite
        ({ c with peerSettings := settings }.emit .settingsAck)) := by
      refine queueInv_requestWrite ?_ hframe hc.defers hc.sent
      exact hc.linked.congr rfl (fun _ => by simp [Conn.emit]) rfl rfl
    have hids' : OwnIds (requestWrite
        ({ c with peerSettings := settings }.emit .settingsAck)) := by
      rw [requestWrite_eq]
      exact { hids with }
    refine .ite (.bind (fun _ => linked_updateWindows hids' hack.linked)
      fun c₁ h => .ok ?_) (.ok hack)
    exact queueInv_ifRoom hack h.1 h.2

theorem queueInv_windowUpdateOfStream {increment : Nat} :
    Ensures QueueInv (windowUpdateOfStream c s increment ans) := by
  refine .bind (P := fun r => Linked [] r.1 ∧
    r.1 = { c with streams := r.1.streams, sending := r.1.sending } ∧
      (r.2 = false → r.1 = c)) (fun r h => ?_) fun r h => .dite (fun _ =>
        .ok (queueInv_ifRoom hc h.1 h.2.1)) fun hfull => ?_
  · obtain ⟨hlinked, heq⟩ := linked_updateStreamOutputWindow hids hc.linked h
    refine ⟨hlinked, heq, fun hfull => ?_⟩
    obtain ⟨c₁, b⟩ := r
    obtain ⟨s, -, ⟨-, -, hsame⟩ | ⟨htrue, -⟩⟩ :=
      updateStreamOutputWindow_cases h
    · exact hsame
    · cases htrue.symm.trans hfull
  · rw [h.2.2 (by simpa using hfull)]
    exact (steadyWalk.resetStream (by decide)).imp fun _ h => hc.of_steady h

theorem queueInv_handleWindowUpdateFrame {f : Frame} :
    Ensures (QueueInv ·.1) (handleWindowUpdateFrame c f ans) := by
  unfold handleWindowUpdateFrame
  split
  · exact .bind (Ensures.ite (steadyWalk.resetStream (by decide))
      steadyWalk.streamSendError)
      fun _ h => .ok (hc.of_steady h)
  · exact .ok hc
  · refine .ite ?_ (.ite ?_ (.ok hc))
    · split
      · exact .ok hc
      next outWindow _ =>
        exact .ok (queueInv_requestWriteIfRoom (c := { c with outWindow })
          (hc.linked.congr rfl id rfl rfl) hc.frameSize hc.defers hc.sent
          hc.output)
    · split
      · exact .ok (queueInv_ifRoom hc hc.linked rfl)
      · exact .bind (queueInv_windowUpdateOfStream hids hc) fun _ h => .ok h

end

end

end H2o.Http2Client
