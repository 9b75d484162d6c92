/-
The loop that sends the data of the HTTP/2 client's streams.

`Placed` is where a stream belongs: a stream in `sending_streams` has octets or
the end of its request to send, or comes with frames that are in the output
already. A turn of the loop of `do_emit_writereq` keeps this, and moves a
stream to `sent_streams` only together with something to write (`Drained`). So
the writes that the lists need are scheduled (`QueueInv`) whenever the loop has
run.
-/
import H2o.Http2Client.Proofs.Queue

namespace H2o.Http2Client

open Lib List

variable {room : Nat → Nat} {s' : Stream} {c₁ : Conn} {f : Stream → Stream}

-- ==== the queue

/-- What the lists of streams promise while a connection is open. -/
structure QueueOk (c : Conn) : Prop where
  /-- A stream is in at most one of the lists. -/
  once : (c.sending ++ c.sent).Nodup
  /-- A stream with octets is to be sent, unless it waits for its window or for
  a response of status 100. -/
  bytes : ∀ s ∈ c.streams, s.hasBytes = true →
    s.streamId ∈ c.sending ∨ s.outWindow ≤ 0 ∨ s.sendOwnExpect = true
  /-- `on_write_complete` is going to be called. -/
  sent : c.sent ≠ [] → c.sock = .writing
  output : c.outBuf ≠ [] → c.busy
  /-- The streams are going to be sent, or wait for the connection's window. -/
  blocked : c.sending ≠ [] → c.busy ∨ c.outWindow ≤ 0

/-- A turn of the loop of `do_emit_writereq` sends a frame, if the windows let
it. -/
def Stream.hasOutput (s : Stream) : Prop :=
  s.hasBytes = true ∨ (s.proceedReq = false ∧ s.sendOwnExpect = false ∧
    s.outBuf.isSome = true)

/-- The place of a stream, while the streams in `pending` are taken out of
`sending_streams` one by one. -/
structure Placed (pending : List Nat) (c : Conn) (s : Stream) : Prop where
  bytes : s.hasBytes = true → (s.streamId ∈ pending ∨ s.streamId ∈ c.sending) ∨
    s.outWindow ≤ 0 ∨ s.sendOwnExpect = true
  output : s.streamId ∈ pending ∨ s.streamId ∈ c.sending → s.hasOutput ∨
    c.outBuf ≠ []
  sentEmpty : s.streamId ∈ c.sent → s.hasBytes = false
  expects : s.sendOwnExpect = true → s.req = .body ∧ s.mayWrite = false

structure Linked (pending : List Nat) (c : Conn) : Prop where
  once : (pending ++ (c.sending ++ c.sent)).Nodup
  placed : ∀ s ∈ c.streams, Placed pending c s

section

variable {c c' : Conn} {pending pending' : List Nat} {streamId : Nat}
  {s : Stream}

theorem Linked.of_steady (hc : Linked pending c) (h : Steady c c') :
    Linked pending c' where
  once :=
    hc.once.sublist ((List.Sublist.refl _).append (h.sending.append h.sent))
  placed s' hs' := by
    obtain ⟨s, hs, hwithin, hlinked⟩ := h.streams s' hs'
    have hplace := hc.placed s hs
    refine ⟨fun hbytes => ?_, fun hmem => ?_, fun hmem => ?_,
      fun hexpect => ?_⟩
    · rw [hwithin.streamId, hwithin.outWindow, hwithin.sendOwnExpect]
      rcases hplace.bytes (hwithin.hasBytes ▸ hbytes) with (hmem | hmem)
        | hwait
      · exact .inl (.inl hmem)
      · exact .inl (.inr (hlinked hmem))
      · exact .inr hwait
    · rw [hwithin.streamId] at hmem
      rcases hplace.output (hmem.imp_right fun hmem => h.sending.mem hmem) with
        hout | hout
      · refine .inl ?_
        rcases hout with hout | ⟨hproceed, hexpect, hbuf⟩
        · exact .inl (hwithin.hasBytes.trans hout)
        · refine .inr ⟨?_, hwithin.sendOwnExpect.trans hexpect,
            by rw [hwithin.outBuf, hbuf]⟩
          cases hp : s'.proceedReq with
          | false => rfl
          | true => exact (hwithin.proceedReq hp).symm.trans hproceed
      · exact .inr (h.output hout)
    · rw [hwithin.hasBytes]
      exact hplace.sentEmpty (h.sent.mem (hwithin.streamId ▸ hmem))
    · obtain ⟨hreq, hwrite⟩ := hplace.expects (hwithin.sendOwnExpect ▸ hexpect)
      refine ⟨hwithin.req.trans hreq, ?_⟩
      cases hm : s'.mayWrite with
      | false => rfl
      | true => exact (hwithin.mayWrite hm).symm.trans hwrite

/-- One stream is changed and moved, the others stay where they are. -/
theorem Linked.change (hc : Linked pending c)
    (hstreams : c'.streams = (c.setStream streamId f).streams)
    (hout : c.outBuf ≠ [] → c'.outBuf ≠ [])
    (hsending : ∀ x, x ≠ streamId →
      (x ∈ pending' ∨ x ∈ c'.sending ↔ x ∈ pending ∨ x ∈ c.sending))
    (hsent : ∀ x, x ≠ streamId → x ∈ c'.sent → x ∈ c.sent)
    (honce : (pending' ++ (c'.sending ++ c'.sent)).Nodup)
    (hown : ∀ s ∈ c.streams, s.streamId = streamId →
      Placed pending' c' (f s)) :
    Linked pending' c' where
  once := honce
  placed s' hs' := by
    rw [hstreams] at hs'
    obtain ⟨s, hs, ⟨hid, rfl⟩ | ⟨hne, rfl⟩⟩ := Conn.mem_setStream.1 hs'
    · exact hown s hs hid
    · have hplace := hc.placed s' hs
      refine ⟨fun hbytes => ?_, fun hmem => ?_, fun hmem => ?_, hplace.expects⟩
      · rw [hsending _ hne]
        exact hplace.bytes hbytes
      · exact (hplace.output ((hsending _ hne).1 hmem)).imp_right hout
      · exact hplace.sentEmpty (hsent _ hne hmem)

/-- Nothing the queue depends on is changed. -/
theorem Linked.congr (hc : Linked pending c)
    (hstreams : c'.streams = c.streams) (hout : c.outBuf ≠ [] → c'.outBuf ≠ [])
    (hsending : c'.sending = c.sending)
    (hsent : c'.sent = c.sent) : Linked pending c' where
  once := by
    rw [hsending, hsent]
    exact hc.once
  placed s hs := by
    have hplace := hc.placed s (hstreams ▸ hs)
    refine ⟨?_, ?_, ?_, hplace.expects⟩
    · rw [hsending]
      exact hplace.bytes
    · rw [hsending]
      exact fun hmem => (hplace.output hmem).imp_right hout
    · rw [hsent]
      exact hplace.sentEmpty

/-- A stream that is in neither list is inserted into `sending_streams`. -/
theorem Linked.insert (hc : Linked [] c)
    (hstreams : c'.streams = (c.setStream streamId f).streams)
    (hout : c.outBuf ≠ [] → c'.outBuf ≠ [])
    (hfree : streamId ∉ c.sending ++ c.sent)
    (hsending : c'.sending = c.sending ++ [streamId])
    (hsent : c'.sent = c.sent)
    (hid : ∀ s, s.streamId = streamId → (f s).streamId = streamId)
    (hown : ∀ s ∈ c.streams, s.streamId = streamId →
      ((f s).hasOutput ∨ c'.outBuf ≠ []) ∧
        ((f s).sendOwnExpect = true →
          (f s).req = .body ∧ (f s).mayWrite = false)) : Linked [] c' := by
  have hperm : (streamId :: (c.sending ++ c.sent)).Perm
      (c.sending ++ [streamId] ++ c.sent) := by
    rw [append_assoc]
    exact (perm_middle).symm
  have hmem : streamId ∈ c'.sending := by simp [hsending]
  refine hc.change hstreams hout (fun x hx => ?_) (fun x _ hx => hsent ▸ hx) ?_
    fun s hs hstream => ?_
  · simp [hsending, hx]
  · rw [hsending, hsent]
    exact (hperm.nodup_iff).1 (nodup_cons.2 ⟨hfree, hc.once⟩)
  · obtain ⟨houtput, hexpects⟩ := hown s hs hstream
    refine ⟨fun _ => .inl (.inr ?_), fun _ => houtput, fun hin => ?_, hexpects⟩
    · rw [hid s hstream]
      exact hmem
    · rw [hid s hstream, hsent] at hin
      exact absurd (mem_append_right _ hin) hfree

-- ==== emitting

/-- What the loop of `do_emit_writereq` has made so far is written. -/
structure Drained (c : Conn) : Prop where
  sent : c.sent ≠ [] → c.outBuf ≠ []
  blocked : c.sending ≠ [] → c.outBuf ≠ [] ∨ c.outWindow ≤ 0

/-- A stream of the loop is linked again, or not. -/
theorem linked_linkEmitted (hc : Linked (streamId :: pending) c)
    (hstreams : c₁.streams = (c.setStream streamId fun _ => s').streams)
    (hout : c.outBuf ≠ [] → c₁.outBuf ≠ [])
    (hsending : c₁.sending = c.sending) (hsent : c₁.sent = c.sent)
    (hid : s'.streamId = streamId) (hexpects : s'.sendOwnExpect = true →
      s'.req = .body ∧ s'.mayWrite = false) :
    Linked pending (linkEmitted c₁ s') := by
  have honce := hc.once
  simp only [cons_append, nodup_cons, mem_append] at honce
  obtain ⟨hfree, honce⟩ := honce
  have hpending : streamId ∉ pending := fun hmem => hfree (.inl hmem)
  have hsendingFree : streamId ∉ c.sending :=
    fun hmem => hfree (.inr (.inl hmem))
  have hsentFree : streamId ∉ c.sent := fun hmem => hfree (.inr (.inr hmem))
  unfold linkEmitted
  split
  next hempty =>
    refine hc.change hstreams hout (fun x hx => ?_) (fun x hx hmem =>
      ?_) ?_ fun _ _ _ => ?_
    · simp [hsending, hx]
    · simpa [hsent, hid, hx] using hmem
    · have hperm : (streamId :: (pending ++ (c.sending ++ c.sent))).Perm
          (pending ++ (c.sending ++ (c.sent ++ [streamId]))) := by
        rw [← append_assoc, ← append_assoc, ← append_assoc]
        exact (perm_append_singleton _ _).symm
      simp only [hsending, hsent, hid]
      exact (hperm.nodup_iff).1 hc.once
    · refine ⟨fun hbytes => ?_, fun hmem => ?_, fun _ => hempty, hexpects⟩
      · rw [hempty] at hbytes
        cases hbytes
      · simp [hsending, hid, hpending, hsendingFree] at hmem
  next hbytes =>
    have hbytes : s'.hasBytes = true := by simpa using hbytes
    split
    next hgo =>
      refine hc.change hstreams hout (fun x hx => ?_) (fun x hx hmem =>
        ?_) ?_ fun _ _ _ => ?_
      · simp [hsending, hid, hx]
      · simpa [hsent] using hmem
      · have hperm : (streamId :: (pending ++ (c.sending ++ c.sent))).Perm
            (pending ++ (c.sending ++ [streamId] ++ c.sent)) := by
          rw [append_assoc c.sending, ← append_assoc, ← append_assoc]
          exact (perm_middle).symm
        simp only [hsending, hsent, hid]
        exact (hperm.nodup_iff).1 hc.once
      · refine ⟨fun _ => .inl (.inr (by simp)), fun _ => .inl (.inl hbytes),
          fun hmem => ?_, hexpects⟩
        simp [hsent, hid, hsentFree] at hmem
    next hwait =>
      refine hc.change hstreams hout (fun x hx => ?_) (fun x hx hmem =>
        ?_) ?_ fun _ _ _ => ?_
      · simp [hsending, hx]
      · simpa [hsent] using hmem
      · rw [hsending, hsent]
        exact honce
      · refine ⟨fun _ => .inr ?_, fun _ => .inl (.inl hbytes), fun hmem => ?_,
          hexpects⟩
        · by_cases hwindow : s'.outWindow ≤ 0
          · exact .inl hwindow
          · right
            simpa [not_le.1 hwindow] using hwait
        · rw [hsent, hid] at hmem
          exact absurd hmem hsentFree

/-- The socket and its timer, and what else emitting leaves alone. -/
def Conn.schedule (c : Conn) :=
  (c.alive, c.state, c.sock, c.deferTimeout, c.peerSettings)

theorem linkEmitted_keeps (c : Conn) (s : Stream) :
    (linkEmitted c s).outBuf = c.outBuf ∧ (linkEmitted c s).outWindow =
      c.outWindow ∧
        (linkEmitted c s).schedule = c.schedule := by
  unfold linkEmitted
  split
  · exact ⟨rfl, rfl, rfl⟩
  · split
    · exact ⟨rfl, rfl, rfl⟩
    · exact ⟨rfl, rfl, rfl⟩

/-- A turn that sends nothing moves the stream to `sent_streams` only if there
is output, and back to `sending_streams` only if there is output or the window
of the connection is used up. -/
theorem drained_of_holds {room : Nat} (hc : Drained c)
    (hframe : 0 < c.peerSettings.maxFrameSize.toNat)
    (hout : s.hasOutput ∨ c.outBuf ≠ []) (hholds : Holds c s room)
    (hbuf : c₁.outBuf = c.outBuf) (hwindow : c₁.outWindow = c.outWindow)
    (hsending : c₁.sending = c.sending) (hsent : c₁.sent = c.sent) :
    Drained (linkEmitted c₁ s) := by
  obtain ⟨hlinkBuf, hlinkWindow, -⟩ := linkEmitted_keeps c₁ s
  by_cases hne : c.outBuf = []
  · -- nothing is sent, so that nothing may be linked
    have hsent' : c.sent = [] := by
      by_contra hmem
      exact hc.sent hmem hne
    have hout : s.hasOutput := hout.resolve_right (absurd hne)
    have hwaits : s.hasBytes = true ∧ (s.outWindow > 0 ∧
        s.sendOwnExpect = false → c.outWindow ≤ 0) := by
      rcases hholds with hexpect | hnone | ⟨buf, hbuf, hzero, hmore⟩
      · rcases hout with hbytes | ⟨-, hfree, -⟩
        · exact ⟨hbytes, fun hgo => by simp [hexpect] at hgo⟩
        · simp [hexpect] at hfree
      · simp [Stream.hasOutput, Stream.hasBytes, hnone] at hout
      · have hbytes : s.hasBytes = true := by
          rcases hout with hbytes | ⟨hproceed, -, -⟩
          · exact hbytes
          · rcases hmore with hmore | hmore
            · simp [hproceed] at hmore
            · cases buf with
              | nil => exact absurd rfl hmore
              | cons => simp [Stream.hasBytes, hbuf]
        refine ⟨hbytes, fun hgo => ?_⟩
        have hlength : 0 < buf.length := by
          cases buf with
          | nil => simp [Stream.hasBytes, hbuf] at hbytes
          | cons => simp
        by_contra hopen
        have hroom : 0 < bufferWindow c room := by
          simp only [bufferWindow, hne, if_true]
          omega
        unfold calcMaxPayloadSize at hzero
        rw [if_neg (by omega), if_neg (by omega)] at hzero
        omega
    refine ⟨fun hmem => ?_, fun hmem => ?_⟩
    · unfold linkEmitted at hmem
      rw [if_neg (by simp [hwaits.1])] at hmem
      split at hmem
      · exact absurd (hsent.trans hsent') hmem
      · exact absurd (hsent.trans hsent') hmem
    · rw [hlinkWindow, hwindow]
      right
      unfold linkEmitted at hmem
      rw [if_neg (by simp [hwaits.1])] at hmem
      split at hmem
      next hgo => exact hwaits.2 hgo
      · exact (hc.blocked (hsending ▸ hmem)).resolve_left (absurd hne)
  · have hout : (linkEmitted c₁ s).outBuf ≠ [] := by
      rw [hlinkBuf, hbuf]
      exact hne
    exact ⟨fun _ => hout, fun _ => .inl hout⟩

theorem emitStream_schedule (h : emitStream room c streamId = .ok c') :
    c'.schedule = c.schedule := by
  obtain ⟨s, -, ⟨-, rfl⟩ | ⟨buf, n, -, rfl⟩⟩ := emitStream_cases h
  · exact (linkEmitted_keeps _ s).2.2
  · exact (linkEmitted_keeps _ _).2.2

/-- One stream's turn. -/
theorem linked_emitStream (hc : Linked (streamId :: pending) c)
    (h : emitStream room c streamId = .ok c') : Linked pending c' := by
  obtain ⟨s, hs, ⟨-, rfl⟩ | ⟨buf, n, hemits, rfl⟩⟩ := emitStream_cases h
  · obtain ⟨hmem, hid⟩ := Conn.getStream_some hs
    exact linked_linkEmitted hc rfl id rfl rfl hid (hc.placed s hmem).expects
  · obtain ⟨-, hid⟩ := Conn.getStream_some hs
    refine linked_linkEmitted hc rfl (fun _ => ?_) rfl rfl hid fun hexpect =>
      ?_
    · simp [emitData, Conn.emit, Conn.setStream]
    · have hexpect : s.sendOwnExpect = true := hexpect
      rw [hemits.expect] at hexpect
      cases hexpect

theorem drained_emitStream (hc : Linked (streamId :: pending) c)
    (hdrained : Drained c) (hframe : 0 < c.peerSettings.maxFrameSize.toNat)
    (h : emitStream room c streamId = .ok c') : Drained c' := by
  obtain ⟨s, hs, ⟨hholds, rfl⟩ | ⟨buf, n, hemits, rfl⟩⟩ := emitStream_cases h
  · obtain ⟨hmem, rfl⟩ := Conn.getStream_some hs
    have hout := (hc.placed s hmem).output (.inl mem_cons_self)
    exact drained_of_holds hdrained hframe hout hholds rfl rfl rfl rfl
  · have hout : (linkEmitted ((emitData c s buf n (s.ends buf n)).setStream
        streamId fun _ => s.consume buf n) (s.consume buf n)).outBuf ≠ [] := by
      rw [(linkEmitted_keeps _ _).1]
      simp [emitData, Conn.emit, Conn.setStream]
    exact ⟨fun _ => hout, fun _ => .inl hout⟩

/-- The streams in `sending_streams` have octets. -/
def SendingBytes (c : Conn) : Prop := ∀ s ∈ c.streams, s.streamId ∈ c.sending →
    s.hasBytes = true

theorem sendingBytes_linkEmitted (hc : SendingBytes c)
    (hfree : streamId ∉ c.sending)
    (hstreams : c₁.streams = (c.setStream streamId fun _ => s').streams)
    (hsending : c₁.sending = c.sending) (hid : s'.streamId = streamId) :
    SendingBytes (linkEmitted c₁ s') := by
  have hbase : SendingBytes { c₁ with sending := c.sending } := by
    intro t ht hmem
    have ht : t ∈ c₁.streams := ht
    rw [hstreams] at ht
    obtain ⟨u, hu, ⟨-, rfl⟩ | ⟨-, rfl⟩⟩ := Conn.mem_setStream.1 ht
    · exact absurd (hid ▸ hmem) hfree
    · exact hc t hu hmem
  intro t ht hmem
  unfold linkEmitted at ht hmem
  split at ht
  next hempty =>
    rw [if_pos hempty] at hmem
    exact hbase t ht (hsending ▸ hmem)
  next hbytes =>
    rw [if_neg hbytes] at hmem
    split at ht
    next hgo =>
      rw [if_pos hgo] at hmem
      rcases mem_append.1 hmem with hmem | hmem
      · exact hbase t ht (hsending ▸ hmem)
      · have ht : t ∈ c₁.streams := ht
        rw [hstreams] at ht
        obtain ⟨u, -, ⟨-, rfl⟩ | ⟨hne, rfl⟩⟩ := Conn.mem_setStream.1 ht
        · simpa using hbytes
        · exact absurd ((mem_singleton.1 hmem).trans hid) hne
    next hwait =>
      rw [if_neg hwait] at hmem
      exact hbase t ht (hsending ▸ hmem)

theorem sendingBytes_emitStream (hc : Linked (streamId :: pending) c)
    (hbytes : SendingBytes c) (h : emitStream room c streamId = .ok c') :
    SendingBytes c' := by
  have hfree : streamId ∉ c.sending := by
    have honce := hc.once
    simp only [cons_append, nodup_cons, mem_append] at honce
    exact fun hmem => honce.1 (.inr (.inl hmem))
  obtain ⟨s, hs, ⟨-, rfl⟩ | ⟨buf, n, -, rfl⟩⟩ := emitStream_cases h
  · exact sendingBytes_linkEmitted hbytes hfree
      rfl rfl (Conn.getStream_some hs).2
  · exact sendingBytes_linkEmitted hbytes hfree
      rfl rfl (Conn.getStream_some hs).2

/-- And the whole loop. -/
theorem linked_loop (hc : Linked pending c) (hbytes : SendingBytes c)
    (h : pending.foldlM (emitStream room) c = .ok c') :
    Linked [] c' ∧ SendingBytes c' ∧ c'.schedule = c.schedule ∧
      (0 < c.peerSettings.maxFrameSize.toNat → Drained c → Drained c') := by
  induction pending generalizing c with
  | nil =>
    cases Except.ok.inj h
    exact ⟨hc, hbytes, rfl, fun _ => id⟩
  | cons id pending ih =>
    obtain ⟨c₁, h₁, h⟩ := except_bind_eq_ok.1 h
    have hschedule₁ := emitStream_schedule h₁
    have hsettings : c₁.peerSettings = c.peerSettings :=
      congrArg (fun t => t.2.2.2.2) hschedule₁
    obtain ⟨hlinked, hbytes, hschedule, hdrained⟩ := ih
      (linked_emitStream hc h₁) (sendingBytes_emitStream hc hbytes h₁) h
    exact ⟨hlinked, hbytes, hschedule.trans hschedule₁, fun hframe hc' =>
      hdrained (hsettings ▸ hframe) (drained_emitStream hc hc' hframe h₁)⟩

-- ==== the state

/-- The queue, and the writes that are scheduled for it. -/
structure QueueInv (c : Conn) : Prop where
  linked : Linked [] c
  frameSize : 0 < c.peerSettings.maxFrameSize.toNat
  defers : c.deferTimeout = true → c.sock = .idle
  sent : c.alive = true → c.state ≠ .isClosing → c.sent ≠ [] →
    c.sock = .writing
  output : c.alive = true → c.state ≠ .isClosing → c.outBuf ≠ [] → c.busy
  blocked : c.alive = true → c.state ≠ .isClosing → c.sending ≠ [] → c.busy ∨
    c.outWindow ≤ 0

theorem QueueInv.queueOk (hc : QueueInv c) (halive : c.alive = true)
    (hopen : c.state ≠ .isClosing) : QueueOk c where
  once := hc.linked.once
  bytes s hs hbytes := by
    rcases (hc.linked.placed s hs).bytes hbytes with (hmem | hmem) | hwait
    · cases hmem
    · exact .inl hmem
    · exact .inr hwait
  sent := hc.sent halive hopen
  output := hc.output halive hopen
  blocked := hc.blocked halive hopen

theorem QueueInv.of_steady (hc : QueueInv c) (h : Steady c c') :
    QueueInv c' where
  linked := hc.linked.of_steady h
  frameSize := h.peerSettings ▸ hc.frameSize
  defers hdefer := by
    rw [h.sock]
    rcases h.defers hdefer with hdefer | hidle
    · exact hc.defers hdefer
    · exact hidle
  sent halive hopen hne := by
    rw [h.sock]
    refine hc.sent (h.alive ▸ halive) (mt h.closing hopen) fun hempty => hne ?_
    exact sublist_nil.1 (hempty ▸ h.sent)
  output halive hopen hne := by
    rcases h.requests hne with hne | hclosing | hbusy
    · exact h.busy (hc.output (h.alive ▸ halive) (mt h.closing hopen) hne)
    · exact absurd hclosing hopen
    · exact hbusy
  blocked halive hopen hne := by
    rw [h.outWindow]
    have hbefore : c.sending ≠ [] :=
      fun hempty => hne (sublist_nil.1 (hempty ▸ h.sending))
    exact (hc.blocked (h.alive ▸ halive) (mt h.closing hopen) hbefore).imp_left
      h.busy

section

variable (hlinked : Linked [] c)
  (hframe : 0 < c.peerSettings.maxFrameSize.toNat)
  (hdefers : c.deferTimeout = true → c.sock = .idle)
  (hsent : c.alive = true → c.state ≠ .isClosing → c.sent ≠ [] →
    c.sock = .writing)
include hlinked hframe hdefers hsent

/-- A write is requested for whatever there is. -/
theorem queueInv_requestWrite : QueueInv (requestWrite c) := by
  have hsteady := Steady.requestWrite c
  have hbusy : (requestWrite c).state ≠ .isClosing →
      (requestWrite c).busy := by
    exact fun hopen => requestWrite_busy (mt hsteady.closing hopen)
  refine ⟨hlinked.of_steady hsteady, hsteady.peerSettings ▸ hframe, ?_, ?_,
    fun _ hopen _ => hbusy hopen, fun _ hopen _ => .inl (hbusy hopen)⟩
  · intro hdefer
    rw [hsteady.sock]
    exact (hsteady.defers hdefer).elim hdefers id
  · intro halive hopen hne
    rw [hsteady.sock]
    refine hsent (hsteady.alive ▸ halive) (mt hsteady.closing hopen)
      fun hempty => hne ?_
    exact sublist_nil.1 (hempty ▸ hsteady.sent)

/-- The same after a window has grown. Without room there is either output, for
which a write is scheduled, or no window. -/
theorem queueInv_requestWriteIfRoom {room : Nat}
    (hout : c.alive = true → c.state ≠ .isClosing → c.outBuf ≠ [] → c.busy) :
    QueueInv (requestWriteIfRoom c room) := by
  unfold requestWriteIfRoom
  split
  · exact queueInv_requestWrite hlinked hframe hdefers hsent
  next hroom =>
    refine ⟨hlinked, hframe, hdefers, hsent, hout, fun halive hopen _ => ?_⟩
    by_cases hne : c.outBuf = []
    · right
      simp only [bufferWindow, hne, if_true] at hroom
      omega
    · exact .inl (hout halive hopen hne)

end

theorem queueInv_doEmitWritereq (hlinked : Linked [] c)
    (hframe : 0 < c.peerSettings.maxFrameSize.toNat)
    (hdefer : c.deferTimeout = false)
    (hsent : c.alive = true → c.state ≠ .isClosing → c.sent = [])
    (h : doEmitWritereq c room = .ok c') : QueueInv c' := by
  unfold doEmitWritereq at h
  split at h
  · cases h
  obtain ⟨c₁, h₁, h⟩ := except_bind_eq_ok.1 h
  have hpending : Linked c.sending { c with sending := [] } := by
    refine ⟨by simpa using hlinked.once, fun s hs => ?_⟩
    have hplace := hlinked.placed s hs
    exact { hplace with
      bytes := fun hbytes => (hplace.bytes hbytes).imp_left fun hmem => by
        simpa using hmem
      output := fun hmem => hplace.output (by simpa using hmem) }
  have hnone : SendingBytes { c with sending := [] } := by
    intro s _ hmem
    cases hmem
  obtain ⟨hlinked₁, hbytes, hschedule, hloop⟩ := linked_loop hpending hnone h₁
  simp only [Conn.schedule, Prod.mk.injEq] at hschedule
  obtain ⟨halive, hstate, hsock, hdefer₁, hsettings⟩ := hschedule
  have hdrained : c.alive = true → c.state ≠ .isClosing → Drained c₁ := by
    intro halive hopen
    have hstart : Drained { c with sending := [] } :=
      ⟨fun hne => absurd (hsent halive hopen) hne, fun hne => absurd rfl hne⟩
    exact hloop hframe hstart
  unfold writeOutput at h
  split at h
  next hempty =>
    cases h
    refine ⟨hlinked₁, hsettings ▸ hframe, ?_, ?_, ?_, ?_⟩
    · rw [hdefer₁, hdefer]
      intro hcontra
      cases hcontra
    · intro hlive hopen hne
      exact absurd hempty
        ((hdrained (halive ▸ hlive) (hstate ▸ hopen)).sent hne)
    · exact fun _ _ hne => absurd hempty hne
    · intro hlive hopen hne
      exact .inr (((hdrained (halive ▸ hlive) (hstate ▸ hopen)).blocked
        hne).resolve_left (absurd hempty))
  · split at h
    · cases h
    cases h
    have hwriting : SocketWrite.writing ≠ .idle := by decide
    refine ⟨⟨hlinked₁.once, fun s hs => ?_⟩, hsettings ▸ hframe, ?_,
      fun _ _ _ => rfl, fun _ _ hne => absurd rfl hne,
      fun _ _ _ => .inl (.inl hwriting)⟩
    · have hplace := hlinked₁.placed s hs
      refine { hplace with output := fun hmem => .inl (.inl ?_) }
      exact hbytes s hs (by simpa using hmem)
    · intro hcontra
      have hcontra : c₁.deferTimeout = true := hcontra
      rw [hdefer₁, hdefer] at hcontra
      cases hcontra

end

end H2o.Http2Client
