/-
The send queue of the HTTP/2 client over a run.

A response of status 100 breaks what the lists promise. A request that waited
for it may have nothing to send. It is linked to `sending_streams` all the
same, goes to `sent_streams` without a write, and is never asked for more.
`ContinuesWithOutput` is the condition that this does not happen, and `QueueOk`
what holds then after every event.
-/
import H2o.Http2Client.Proofs.Blocks
import H2o.Http2Client.Proofs.QueueEvents

namespace H2o.Http2Client

open Http2 Hpack Lib Bool List

variable {ans : Answers} {f : Frame} {eos : Bool} {e : Option ConnError}

section

variable {c c' : Conn} {s : Stream}

-- ==== header blocks

/-- The status of a block that begins a response. -/
def blockStatus (c : Conn) (s : Stream) (src : Bytes) : Option Nat :=
  match parseResponse c.inTable false s.headers src with
  | .ok (_, p) => some p.status
  | .error _ => none

/-- The stream has something to send, or is going to be asked for more. -/
def Continues (c : Conn) (s : Stream) : Prop :=
  s.hasBytes = true ∨ s.proceedReq = false ∨ s.streamId ∈ c.sending ∨
    s.streamId ∈ c.sent ∨ c.outBuf ≠ []

instance (c : Conn) (s : Stream) : Decidable (Continues c s) :=
  inferInstanceAs (Decidable (_ ∨ _))

/-- A response of status 100 finds something to send. -/
def ContinuesWithOutput (c : Conn) : Event → Prop
  | .frame f _ => ∀ b ∈ completedBlock c f, ∀ s ∈ c.streams,
      s.streamId = b.1 → s.res ≠ .body → s.sendOwnExpect = true →
        blockStatus c s b.2.1 = some 100 → Continues c s
  | _ => True

instance (c : Conn) (e : Event) : Decidable (ContinuesWithOutput c e) :=
  e.decidableOfFrame (fun f _ =>
    inferInstanceAs (Decidable (∀ b ∈ completedBlock c f, _)))
    fun e he => by cases e <;> trivial

/-- The stream is allowed to go on. -/
theorem linked_continue (hc : Linked [] c)
    (hsame : ∀ t ∈ c.streams, t.streamId = s.streamId → t.Within s)
    (hlinked : s.outBuf.isSome = true → s.streamId ∈ c.sending ++ c.sent) :
    Linked [] (c.setStream s.streamId fun s =>
      { s with status := 0, sendOwnExpect := false }) := by
  refine hc.change rfl id (fun x _ => Iff.rfl) (fun x _ =>
    id) hc.once fun t ht hid => ?_
  have hplace := hc.placed t ht
  refine ⟨fun hbytes => ?_, fun hmem => ?_, hplace.sentEmpty,
    fun hcontra => by cases hcontra⟩
  · have hbytes : t.hasBytes = true := hbytes
    have hbuf : s.outBuf.isSome = true := by
      rw [← (hsame t ht hid).outBuf]
      unfold Stream.hasBytes at hbytes
      split at hbytes
      next hbuf => simp [hbuf]
      · cases hbytes
    rcases mem_append.1 (hlinked hbuf) with hsending | hsent
    · exact .inl (.inr (hid ▸ hsending))
    · rw [hplace.sentEmpty (hid ▸ hsent)] at hbytes
      cases hbytes
  · refine (hplace.output hmem).imp_left fun hout => ?_
    rcases hout with hbytes | ⟨hproceed, -, hbuf⟩
    · exact .inl hbytes
    · exact .inr ⟨hproceed, rfl, hbuf⟩

theorem queueInv_onInformational {p : Parsed} (hc : QueueInv c)
    (hsame : ∀ t ∈ c.streams, t.streamId = s.streamId → t.Within s)
    (hout : p.status = 100 → s.sendOwnExpect = true → Continues c s) :
    Ensures QueueInv (onInformational c s p ans) := by
  refine .ite (steadyWalk.failStream.imp fun _ h => hc.of_steady h) (.dite
    (fun hcontinue => .dite (fun hinsert c' h => ?_) fun hno => .ok ?_)
    fun _ => .ite (.ite ?_ (.ok (hc.of_steady (.log _ c)))) (.ok hc))
  · obtain ⟨c₁, h₁, h⟩ := except_bind_eq_ok.1 h
    cases h
    obtain ⟨hfree, rfl⟩ := insertSending_eq h₁
    refine queueInv_requestWrite ?_ hc.frameSize hc.defers hc.sent
    refine hc.linked.insert (f := fun s =>
      { s with status := 0, sendOwnExpect := false }) rfl id
      hfree rfl rfl (fun t hid => hid) fun t ht hid => ⟨?_, fun hcontra => ?_⟩
    · have hwithin := hsame t ht hid
      rcases hout hcontinue.1 hcontinue.2 with
        hbytes | hproceed | hmem | hmem | hne
      · exact .inl (.inl (hwithin.hasBytes.trans hbytes))
      · refine .inl (.inr ⟨?_, rfl, ?_⟩)
        · cases hp : t.proceedReq with
          | false => rfl
          | true => exact (hwithin.proceedReq hp).symm.trans hproceed
        · rw [hwithin.outBuf]
          exact hinsert.1
      · exact absurd (mem_append_left _ hmem) hfree
      · exact absurd (mem_append_right _ hmem) hfree
      · exact .inr hne
    · cases hcontra
  · refine { hc with linked := linked_continue hc.linked hsame ?_ }
    intro hbuf
    by_contra hfree
    apply hno
    refine ⟨hbuf, ?_⟩
    show c.isSendingLinked s.streamId = false
    simpa [Conn.isSendingLinked] using hfree
  · exact ((Steady.log _ c).then steadyWalk.giveUp).imp fun _ h =>
      hc.of_steady h

theorem queueInv_onHeadParsed {p : Parsed} {isEndStream : Bool}
    (hids : OwnIds c) (hc : QueueInv c) (hs : s ∈ c.streams)
    (hout : p.status = 100 → s.sendOwnExpect = true → Continues c s) :
    Ensures QueueInv (onHeadParsed c s p isEndStream ans) := by
  have hset : Steady c (c.setStream s.streamId fun s =>
      { s with status := p.status, headers := p.headers }) :=
    .setStream (by intro s; exact ⟨rfl, id, id⟩) _ c
  have hc' := hc.of_steady hset
  refine .ite (steadyWalk.failStream.imp fun _ h => hc'.of_steady h) (.ite
    (queueInv_onInformational hc' (fun t ht hid => ?_) hout)
    (steady_onFinalHead.imp fun _ h => hc'.of_steady h))
  obtain ⟨u, hu, ⟨hid', rfl⟩ | ⟨hne, rfl⟩⟩ := Conn.mem_setStream.1 ht
  · obtain rfl := stream_eq_of_nodup hids.nodup hu hs hid'
    exact ⟨rfl, id, id⟩
  · exact absurd hid hne

/-- A frame of a header block. The condition is on the connection before it. -/
theorem queueInv_block {c₁ : Conn} {id : Nat} {src : Bytes} (hids : OwnIds c₁)
    (hc : QueueInv c₁) (hcond : ContinuesWithOutput c (.frame f ans))
    (hblock : completedBlock c f = some (id, src, eos))
    (hstreams : ∀ s₁ ∈ c₁.streams, ∃ s ∈ c.streams, s₁.Within s ∧
      s₁.proceedReq = s.proceedReq ∧ s₁.res = s.res ∧ s₁.headers = s.headers)
    (hsending : c₁.sending = c.sending) (hsent : c₁.sent = c.sent)
    (hbuf : c₁.outBuf = c.outBuf) (htable : c₁.inTable = c.inTable) :
    Ensures (QueueInv ·.1) (handleBlock c₁ id src eos ans) := by
  refine ensures_handleBlock hc (fun t h => h.of_steady { Steady.refl _ with })
    (fun _ _ _ => hc.of_steady (.log _ c₁)) ?_ ?_
  · exact fun _ _ _ _ _ _ h =>
      (steadyWalk.onTrailersParsed (.log _ _) steady_closeResponse).imp
      fun _ h' => h.of_steady h'
  · intro s₁ hs₁ hid hres t p hparse h
    refine queueInv_onHeadParsed { hids with } h hs₁ fun hstatus hexpect => ?_
    show Continues c₁ s₁
    obtain ⟨s, hs, hwithin, hproceed, hres', hheaders⟩ := hstreams s₁ hs₁
    rw [htable, hheaders] at hparse
    have hcontinues :=
      hcond _ hblock s hs (hwithin.streamId.symm.trans hid) (hres' ▸ hres)
      (hwithin.sendOwnExpect.symm.trans hexpect)
      (by simp [blockStatus, hparse, hstatus])
    unfold Continues at hcontinues ⊢
    rw [hwithin.hasBytes, hproceed, hwithin.streamId, hsending, hsent, hbuf]
    exact hcontinues

theorem queueInv_handleHeadersFrame (hids : OwnIds c) (hc : QueueInv c)
    (hread : c.readFrame = .expectDefault) (htype : f.type = .headers)
    (hcond : ContinuesWithOutput c (.frame f ans))
    (h : handleHeadersFrame c f ans = .ok (c', e)) : QueueInv c' := by
  have huntimed : Steady c (c.untimed f.streamId) :=
    .setStream (by intro s; exact ⟨rfl, id, id⟩) _ c
  cases headersRead h with
  | rejected => exact hc
  | notLast => exact hc.of_steady huntimed
  | begun => exact hc.of_steady (huntimed.trans { Steady.refl _ with })
  | complete hdecode hend h =>
    have hids' : OwnIds (c.untimed f.streamId) :=
      hids.of_quiet (FlowQuiet.ids
        (.setStream (by intro s; exact ⟨rfl, rfl⟩) _ c))
    refine queueInv_block hids' (hc.of_steady huntimed)
      hcond ?_ ?_ rfl rfl rfl rfl _ h
    · simp [completedBlock, hread, htype, hdecode, hend]
    · intro s₁ hs₁
      obtain ⟨s, hs, ⟨-, rfl⟩ | ⟨-, rfl⟩⟩ := Conn.mem_setStream.1 hs₁
      · exact ⟨s, hs, ⟨rfl, id, id⟩, rfl, rfl, rfl⟩
      · exact ⟨s₁, hs, .refl s₁, rfl, rfl, rfl⟩

theorem queueInv_expectContinuationOfHeaders (hids : OwnIds c)
    (hc : QueueInv c) (hread : c.readFrame = .expectContinuationOfHeaders eos)
    (hcond : ContinuesWithOutput c (.frame f ans))
    (h : expectContinuationOfHeaders c f eos ans = .ok (c', e)) :
    QueueInv c' := by
  cases continuationRead h with
  | rejected => exact hc
  | continues => exact hc.of_steady { Steady.refl c with }
  | complete htype hend h =>
    have hsteady : Steady c
        { c with readFrame := .expectDefault, headersUnparsed := [] } :=
      { Steady.refl c with }
    have hids' : OwnIds
        { c with readFrame := .expectDefault, headersUnparsed := [] } :=
      { hids with }
    refine queueInv_block hids' (hc.of_steady hsteady)
      hcond ?_ ?_ rfl rfl rfl rfl _ h
    · simp [completedBlock, hread, htype, hend]
    · intro s hs
      exact ⟨s, hs, .refl s, rfl, rfl, rfl⟩

-- ==== runs

/-- A frame that is read without an error. -/
theorem queueInv_readFrame (hids : OwnIds c) (hc : QueueInv c)
    (hcond : ContinuesWithOutput c (.frame f ans))
    (h : readFrame (c.received f) f ans = .ok (c', e)) : QueueInv c' := by
  have hc₀ : QueueInv (c.received f) := hc.of_steady { Steady.refl c with }
  have hids₀ : OwnIds (c.received f) := { hids with }
  cases handled_readFrame h with
  | rejected => exact hc₀
  | ignored => exact hc₀
  | data hread htype h => exact hc₀.of_steady (steadyWalk.handleDataFrame _ h)
  | headers hread htype h =>
    exact queueInv_handleHeadersFrame hids₀ hc₀ hread htype hcond h
  | quiet hread htype => exact hc₀.of_steady (steady_readFrame hread htype _ h)
  | settings hread htype hlength h hnext =>
    have hsettings := queueInv_handleSettingsFrame hids₀ hc₀ _ h
    exact hsettings.of_steady { Steady.refl _ with }
  | windowUpdate hread htype h =>
    exact queueInv_handleWindowUpdateFrame hids₀ hc₀ _ h
  | continuation hread htype h =>
    exact queueInv_expectContinuationOfHeaders hids₀ hc₀ hread hcond h

theorem queueInv_enqueueGoaway (error : ConnError) (hc : QueueInv c) :
    QueueInv (enqueueGoaway c error) := by
  unfold enqueueGoaway
  split
  · exact hc
  next hopen =>
    have hwrite := hc.of_steady (Steady.emitRequest (.goaway error) c)
    have hopen : (requestWrite (c.emit (.goaway error))).state ≠
        .isClosing := by
      rw [requestWrite_state]
      exact hopen
    exact { hwrite with
      linked := hwrite.linked.congr rfl id rfl rfl
      sent := fun halive _ => hwrite.sent halive hopen
      output := fun halive _ => hwrite.output halive hopen
      blocked := fun halive _ => hwrite.blocked halive hopen }

theorem queueInv_connectionError {error : ConnError} (hc : QueueInv c) :
    Ensures QueueInv (connectionError c error) := by
  have hreport : QueueInv (reportError c error) := by
    unfold reportError
    split
    · exact hc
    · exact queueInv_enqueueGoaway error hc
  exact .bind (steadyWalk.callStreamCallbacksWithError (by decide)) fun _ h =>
    queueInv_closeConnection (hreport.of_steady h)

theorem queueInv_handle {e : Event} (hids : OwnIds c) (hc : QueueInv c)
    (hcond : ContinuesWithOutput c e) (henabled : e.enabled c = true) :
    Ensures QueueInv (handle c e) := by
  have hio : ∀ b, QueueInv { c with ioTimeout := b } :=
    fun b => hc.of_steady { Steady.refl c with }
  cases e with
  | «open» r => exact queueInv_onConnectionReady (hio true)
  | frame f ans =>
    show Ensures QueueInv (parseFrame (c.received f) f ans)
    unfold parseFrame
    split
    · exact .error _
    next c₁ hread => exact .ok (queueInv_readFrame hids hc hcond hread)
    next c₁ err hread =>
      exact queueInv_connectionError (queueInv_readFrame hids hc hcond hread)
  | readDone room =>
    refine .bind (P := QueueInv) (.dite (fun hdefer _ h => ?_) fun _ => .ok hc)
      fun c₁ h => .ok (h.of_steady { Steady.refl c₁ with })
    exact queueInv_deferred hc hdefer h
  | readError =>
    exact .bind (steadyWalk.callStreamCallbacksWithError (by decide))
      fun _ h =>
      queueInv_closeConnection ((hio false).of_steady h)
  | deferTimeout room => exact fun _ h => queueInv_deferred hc henabled h
  | writeComplete err reactions room => exact queueInv_onWriteComplete hids hc
  | notifyWrite err room =>
    exact queueInv_onNotifyWrite hc (by simpa [Event.enabled] using henabled)
  | streamTimeout streamId =>
    have hset : Steady c (c.setStream streamId fun s =>
        { s with timeout := false }) :=
      .setStream (by intro s; exact ⟨rfl, id, id⟩) _ c
    exact (hset.then steadyWalk.doStreamTimeout).imp fun _ h => hc.of_steady h
  | ioTimeout =>
    refine .bind (steadyWalk.foldlM (fun _ _ => steadyWalk.doStreamTimeout)
      _ _) fun _ h => ?_
    have hc₁ := (hio false).of_steady h
    exact queueInv_closeConnectionNow hc₁.linked hc₁.frameSize
  | keepaliveTimeout =>
    have hkeepalive : QueueInv { c with keepaliveTimeout := false } :=
      hc.of_steady { Steady.refl c with }
    exact queueInv_closeConnection
      ((queueInv_enqueueGoaway _ hkeepalive).of_steady (.requestWrite _))
  | writeReq streamId chunk isEndStream =>
    simp only [Event.enabled, and_eq_true, Option.any_eq_true] at henabled
    obtain ⟨⟨s, hs, hwritable⟩, hok⟩ := henabled
    obtain ⟨hmem, hid⟩ := Conn.getStream_some hs
    have hmay : s.mayWrite = true := by
      simp only [Stream.writable, and_eq_true] at hwritable
      exact hwritable.2
    have hgoes : Goes streamId c := by
      intro t ht hstream
      obtain rfl := stream_eq_of_nodup hids.nodup ht hmem
        (hstream.trans hid.symm)
      cases hexpect : t.sendOwnExpect with
      | false => rfl
      | true =>
        rw [((hc.linked.placed t ht).expects hexpect).2] at hmay
        cases hmay
    intro c' h
    obtain ⟨c₁, rfl, hlinked, -, hschedule, hsent⟩ :=
      linked_doWriteReq hc.linked hok hgoes h
    have hsettings := schedule_peerSettings hschedule
    simp only [Conn.schedule, Prod.mk.injEq] at hschedule
    obtain ⟨halive, hstate, hsock, hdefer, -⟩ := hschedule
    refine queueInv_requestWrite hlinked (hsettings ▸ hc.frameSize) ?_ ?_
    · rw [hdefer, hsock]
      exact hc.defers
    · rw [halive, hstate, hsent, hsock]
      exact hc.sent
  | cancel streamId => exact steadyWalk.giveUp.imp fun _ h => hc.of_steady h
  | updateWindow streamId consumed =>
    have hset : Steady c (c.setStream streamId fun s =>
        { s with bodySize := s.bodySize - consumed }) :=
      .setStream (by intro s; exact ⟨rfl, id, id⟩) _ c
    exact (hset.then steadyWalk.doUpdateWindow).imp fun _ h => hc.of_steady h

theorem queueInv_createConnection (ctx : Context) :
    QueueInv (createConnection ctx) := by
  have hframe : 0 < Settings.default.maxFrameSize.toNat := by decide
  refine queueInv_requestWrite ?_ hframe ?_ ?_
  · refine ⟨nodup_nil, fun s hs => ?_⟩
    cases hs
  · intro hdefer
    cases hdefer
  · intro _ _ hne
    exact absurd rfl hne

end

/-- If each response of status 100 finds something to send, the queue keeps its
promises after every event on an open connection. -/
theorem queueOk_of_continuesWithOutput (ctx : Context) (es : List Event)
    (hcond : Meets step ContinuesWithOutput (createConnection ctx) es)
    (c : Conn) (hrun : es.foldlM step (createConnection ctx) = .ok c)
    (halive : c.alive = true) (hopen : c.state ≠ .isClosing) : QueueOk c := by
  have hinv : QueueInv c := run_base (fun c e c' hc hbase hcond => Ensures.dite
    (fun hgo => queueInv_handle hbase.ids hc hcond (and_eq_true_iff.1 hgo).2)
    (fun _ => .ok hc) c') (queueInv_createConnection ctx) hcond hrun
  exact hinv.queueOk halive hopen

/-- A request that waits for a response of status 100, with some octets of its
body. The headers are written before the response comes. -/
def expectEvents (body : Bytes) : List Event :=
  [.frame ⟨.settings, 0, 0, []⟩ acceptAll,
    .open { plainRequest (ascii "POST") (some body) with
      proceedReq := true, sendOwnExpect := true },
    .deferTimeout fun _ => 65536,
    .writeComplete false (fun _ => .wait) fun _ => 65536,
    .frame ⟨.headers, 4, 1, [0x08, 0x03, 0x31, 0x30, 0x30]⟩ acceptAll,
    .deferTimeout fun _ => 65536]

theorem queueOk_of_expectEvents :
    ∃ c, (expectEvents (ascii "abc")).foldlM step
      (createConnection ⟨65536, 100⟩) = .ok c ∧
      c.sent = [1] ∧ c.sock = .writing ∧ QueueOk c := by
  have hreaches : reaches step
      (fun c => c.alive && c.state == .open && c.sent == [1] &&
        c.sock == .writing)
      (createConnection ⟨65536, 100⟩) (expectEvents (ascii "abc")) = true := by
    decide +kernel
  obtain ⟨c, hrun, htest⟩ := exists_of_reaches hreaches
  simp only [and_eq_true, beq_iff_eq] at htest
  obtain ⟨⟨⟨halive, hstate⟩, hsent⟩, hsock⟩ := htest
  exact ⟨c, hrun, hsent, hsock, queueOk_of_continuesWithOutput _ _
    (meets_iff.mp (by decide +kernel)) c hrun halive (by simp [hstate])⟩

/-- Without octets, the response of status 100 leaves the stream among those
that are sent, and no write is in flight or scheduled. -/
theorem sent_without_write_after_continue :
    reaches step (fun c => c.alive && c.state == .open && c.sent == [1] &&
        c.sock == .idle && !c.deferTimeout && c.outBuf.isEmpty)
      (createConnection ⟨65536, 100⟩) (expectEvents []) = true := by
  decide +kernel

end H2o.Http2Client
