/-
The windows the HTTP/2 client gives to the server.

`RecvLag n id` says that the recorded windows are those the server has left,
but for `n` octets on the stream `id`, which were received and are not counted
yet; the windows are exact when nothing lags. `RecvSafe` bounds the windows, so
that the unsigned comparison and the narrowing of `enqueue_window_update` do no
harm and every increment is positive.

`handle_data_frame` does not count the padding of a frame, and does not count a
frame at all if it rejects it: the stream is reset, but the server's window of
the connection stays used up. `DataCounted` is the condition that neither
happens.
-/
import H2o.Http2Client.Proofs.Turn

namespace H2o.Http2Client

open Http2 Lib List

variable {f : Frame} {avail increment w : Int}

-- ==== the ledger

section

variable {t : List Label} {id streamId initial : Nat}

@[simp] theorem credit_cons (l : Label) :
    credit id (l :: t) = l.creditOn id + credit id t := by
  simp [credit]

/-- A label that gives no credit and is no received frame. -/
def Label.creditQuiet : Label → Bool
  | recv _ => false
  | opened .. => false
  | sent (.windowUpdate ..) => false
  | _ => true

/-- The labels between leave the windows of the server as they were. -/
structure SameCredit (t t' : List Label) : Prop where
  conn : serverConnWindow t' = serverConnWindow t
  stream : ∀ initial id, serverStreamWindow initial id t' =
    serverStreamWindow initial id t
  positive : CreditsPositive t → CreditsPositive t'

theorem SameCredit.refl (t : List Label) : SameCredit t t :=
  ⟨rfl, fun _ _ => rfl, fun h => h⟩

theorem SameCredit.trans {t' t'' : List Label} (h : SameCredit t t')
    (h' : SameCredit t' t'') : SameCredit t t'' where
  conn := h'.conn.trans h.conn
  stream := fun initial id =>
    (h'.stream initial id).trans (h.stream initial id)
  positive := fun hp => h'.positive (h.positive hp)

/-- A label that is no data and no credit changes nothing. -/
theorem sameCredit_of_zero {l : Label} (hopens : ∀ id, l.opens id = false)
    (hcredit : ∀ id, l.creditOn id = 0) (hdata : l.dataReceived = 0)
    (hdataOn : ∀ id, l.dataReceivedOn id = 0) (hpos : l.PositiveCredit) :
    SameCredit t (l :: t) where
  conn := by simp [serverConnWindow, hcredit, hdata]
  stream := by
    intro initial id
    simp [serverStreamWindow, sinceOpened_cons (hopens id), hcredit, hdataOn]
  positive := fun hp => forall_mem_cons.2 ⟨hpos, hp⟩

theorem sameCredit_cons {l : Label} (hl : l.creditQuiet = true) :
    SameCredit t (l :: t) := by
  refine sameCredit_of_zero ?_ ?_ ?_ ?_ ?_
  · intro id
    cases l <;> first | rfl | cases hl
  · intro id
    cases l with
    | sent f => cases f <;> first | rfl | cases hl
    | _ => rfl
  · cases l <;> first | rfl | cases hl
  · intro id
    cases l <;> first | rfl | cases hl
  · cases l with
    | sent f => cases f <;> trivial
    | _ => trivial

/-- Data use up the connection's window, padding included. -/
theorem serverConnWindow_data (htype : f.type = .data) :
    serverConnWindow (.recv f :: t) = serverConnWindow t -
      f.payload.length := by
  simp only [serverConnWindow, credit_cons, total_cons, Label.creditOn,
    Label.dataReceived, htype, if_true]
  omega

/-- And that of their stream. -/
theorem serverStreamWindow_data (htype : f.type = .data) :
    serverStreamWindow initial id (.recv f :: t) =
      serverStreamWindow initial id t -
        if id = f.streamId then (f.payload.length : Int) else 0 := by
  simp only [serverStreamWindow, sinceOpened_cons (l := .recv f) rfl,
    credit_cons, total_cons, Label.creditOn, Label.dataReceivedOn, htype,
    true_and]
  by_cases hid : id = f.streamId
  · push_cast
    omega
  · push_cast
    omega

/-- Credit comes back by WINDOW_UPDATE frames. -/
theorem serverConnWindow_credit :
    serverConnWindow (.sent (.windowUpdate streamId increment) :: t) =
      serverConnWindow t + if streamId = 0 then increment else 0 := by
  simp only [serverConnWindow, credit_cons, total_cons, Label.creditOn,
    Label.dataReceived]
  omega

theorem serverStreamWindow_credit :
    serverStreamWindow initial id
      (.sent (.windowUpdate streamId increment) :: t) =
      serverStreamWindow initial id t +
        if streamId = id then increment else 0 := by
  simp only [serverStreamWindow, credit_cons, total_cons, Label.creditOn,
    sinceOpened_cons (l := .sent (.windowUpdate streamId increment)) rfl,
    Label.dataReceivedOn]
  omega

end

-- ==== the windows

/-- The windows are those the server has left, but for `n` octets on a stream
that are not counted yet. -/
structure RecvLag (n streamId : Nat) (c : Conn) : Prop where
  window : c.inWindow - n = serverConnWindow c.trace
  streams : ∀ s ∈ c.streams,
    s.inWindow - (if s.streamId = streamId then (n : Int) else 0) =
      serverStreamWindow c.ctx.getMaxBufferSize s.streamId c.trace

/-- The windows are those the server has left. -/
def RecvExact (c : Conn) : Prop := RecvLag 0 0 c

/-- The windows are in range, and every increment was positive. -/
structure RecvSafe (c : Conn) : Prop where
  window : 0 ≤ c.inWindow ∧ c.inWindow ≤ 16777216
  streams : ∀ s ∈ c.streams, 0 ≤ s.inWindow ∧ s.inWindow + s.bodySize ≤
    c.ctx.getMaxBufferSize
  positive : CreditsPositive c.trace

structure RecvInv (c : Conn) : Prop where
  safe : RecvSafe c
  exact : c.state ≠ .isClosing → RecvExact c

/-- What the windows to receive depend on is the same. -/
structure RecvSame (c c' : Conn) : Prop where
  ctx : c'.ctx = c.ctx
  inWindow : c'.inWindow = c.inWindow
  closing : c.state = .isClosing → c'.state = .isClosing
  streams : ∀ s' ∈ c'.streams, ∃ s ∈ c.streams, s'.streamId = s.streamId ∧
    s'.inWindow = s.inWindow ∧ s'.bodySize = s.bodySize
  credit : SameCredit c.trace c'.trace

section

variable {c c' : Conn} {n streamId : Nat}

theorem recvExact_iff : RecvExact c ↔ c.inWindow = serverConnWindow c.trace ∧
    ∀ s ∈ c.streams,
      s.inWindow = serverStreamWindow c.ctx.getMaxBufferSize s.streamId
        c.trace := by
  constructor
  · intro h
    exact ⟨by simpa using h.window, fun s hs => by simpa using h.streams s hs⟩
  · intro h
    exact ⟨by simpa using h.1, fun s hs => by simpa using h.2 s hs⟩

theorem RecvLag.exact (h : RecvLag 0 streamId c) : RecvExact c :=
  ⟨h.window, fun s hs => by simpa using h.streams s hs⟩

theorem RecvSame.trans {c'' : Conn} (h : RecvSame c c')
    (h' : RecvSame c' c'') : RecvSame c c'' where
  ctx := h'.ctx.trans h.ctx
  inWindow := h'.inWindow.trans h.inWindow
  closing := fun hc => h'.closing (h.closing hc)
  streams := by
    intro s'' hs''
    obtain ⟨s', hs', hid', hwin', hbody'⟩ := h'.streams s'' hs''
    obtain ⟨s, hs, hid, hwin, hbody⟩ := h.streams s' hs'
    exact ⟨s, hs, hid'.trans hid, hwin'.trans hwin, hbody'.trans hbody⟩
  credit := h.credit.trans h'.credit

/-- A change that keeps the windows keeps the account of them. -/
theorem recvSame_of_changes {α β : Type} {keep : Kept → β} {part : Stream → α}
    {lab : Label → Bool} (h : Changes keep part lab c c')
    (hkeep : ∀ k l, keep k = keep l → k.ctx = l.ctx ∧ k.inWindow = l.inWindow)
    (hpart : ∀ s t, part s = part t → s.streamId = t.streamId ∧
      s.inWindow = t.inWindow ∧ s.bodySize = t.bodySize)
    (hlab : ∀ l, lab l = true → l.creditQuiet = true) : RecvSame c c' where
  ctx := (hkeep _ _ h.kept).1
  inWindow := (hkeep _ _ h.kept).2
  closing := h.closing
  streams := by
    intro s' hs'
    obtain ⟨s, hs, hst⟩ := h.streams s' hs'
    exact ⟨s, hs, hpart s' s hst⟩
  credit := trace_induction h.trace (.refl _) fun l _ hl ht =>
    ht.trans (sameCredit_cons (hlab l hl))

theorem RecvQuiet.recvSame (h : RecvQuiet c c') : RecvSame c c' := by
  refine recvSame_of_changes h
    (fun _ _ h => ⟨(congrArg Kept.ctx h :), (congrArg Kept.inWindow h :)⟩)
    (fun s t hst => ?_) fun l hl => ?_
  · simp only [Stream.recvCore, Prod.mk.injEq] at hst
    exact ⟨hst.1, hst.2.2.1, hst.2.2.2.2.2.1⟩
  · cases l with
    | sent f => cases f <;> first | rfl | cases hl
    | _ => first | rfl | cases hl

theorem BlockQuiet.recvSame (h : BlockQuiet c c') : RecvSame c c' := by
  refine recvSame_of_changes h
    (fun _ _ h => ⟨(congrArg Kept.ctx h :), (congrArg Kept.inWindow h :)⟩)
    (fun s t hst => ?_) fun l hl => ?_
  · simp only [Stream.windows, Prod.mk.injEq] at hst
    exact ⟨hst.1, hst.2.2⟩
  · cases l with
    | sent f => cases f <;> first | rfl | cases hl
    | _ => first | rfl | cases hl

/-- Only DATA frames use up windows. -/
theorem recvSame_received (htype : f.type ≠ .data) :
    RecvSame c (c.received f) where
  ctx := rfl
  inWindow := rfl
  closing h := h
  streams s hs := ⟨s, hs, rfl, rfl, rfl⟩
  credit := sameCredit_of_zero (fun _ => rfl) (fun _ => rfl)
    (by simp [Label.dataReceived, htype])
    (fun _ => by simp [Label.dataReceivedOn, htype]) trivial

/-- A frame not counted yet stays so. -/
theorem RecvLag.of_same (hc : RecvLag n streamId c) (h : RecvSame c c') :
    RecvLag n streamId c' where
  window := by
    rw [h.inWindow, h.credit.conn]
    exact hc.window
  streams := by
    intro s' hs'
    obtain ⟨s, hs, hid, hwin, -⟩ := h.streams s' hs'
    rw [hid, hwin, h.ctx, h.credit.stream]
    exact hc.streams s hs

theorem RecvSafe.of_same (hc : RecvSafe c) (h : RecvSame c c') :
    RecvSafe c' where
  window := by
    rw [h.inWindow]
    exact hc.window
  streams := by
    intro s' hs'
    obtain ⟨s, hs, -, hwin, hbody⟩ := h.streams s' hs'
    rw [hwin, hbody, h.ctx]
    exact hc.streams s hs
  positive := h.credit.positive hc.positive

theorem RecvInv.of_same (hc : RecvInv c) (h : RecvSame c c') : RecvInv c' where
  safe := hc.safe.of_same h
  exact := fun hstate => (hc.exact (mt h.closing hstate)).of_same h

theorem RecvSafe.received (hc : RecvSafe c) : RecvSafe (c.received f) :=
  { hc with positive := forall_mem_cons.2 ⟨trivial, hc.positive⟩ }

/-- A DATA frame lags until it is counted. -/
theorem RecvExact.received (hc : RecvExact c) (htype : f.type = .data) :
    RecvLag f.payload.length f.streamId (c.received f) := by
  obtain ⟨hwindow, hstreams⟩ := recvExact_iff.1 hc
  refine ⟨?_, fun s hs => ?_⟩
  · simp only [Conn.received, Conn.log, serverConnWindow_data htype, hwindow]
  · simp only [Conn.received, Conn.log, serverStreamWindow_data htype,
      hstreams s hs]

-- ==== new streams

theorem RecvSafe.opened {r : NewRequest} (hc : RecvSafe c) :
    RecvSafe (c.opened r) where
  window := hc.window
  streams := by
    intro s hs
    obtain rfl | ⟨hs, -⟩ := mem_opened hs
    · simp [NewRequest.setup, setupStream, Conn.opened, registerStream,
        Conn.log]
    · exact hc.streams s hs
  positive := forall_mem_cons.2 ⟨trivial, hc.positive⟩

/-- A new stream starts with its whole window. -/
theorem RecvExact.opened {r : NewRequest} (hc : RecvExact c) :
    RecvExact (c.opened r) where
  window := by
    have hwindow := hc.window
    simpa [Conn.opened, registerStream, Conn.log, serverConnWindow,
      Label.creditOn, Label.dataReceived] using hwindow
  streams := by
    intro s hs
    obtain rfl | ⟨hs, hne⟩ := mem_opened hs
    · have hnew : serverStreamWindow c.ctx.getMaxBufferSize c.nextStreamId
          (.opened c.nextStreamId (r.request.method == ascii "HEAD") ::
            c.trace) = c.ctx.getMaxBufferSize := by
        simp [serverStreamWindow, sinceOpened_opened, credit]
      simpa [NewRequest.setup, setupStream, Conn.opened, registerStream,
        Conn.log] using hnew.symm
    · have hopens : (Label.opened c.nextStreamId
          (r.request.method == ascii "HEAD")).opens s.streamId = false := by
        simpa [Label.opens] using hne
      simpa [Conn.opened, registerStream, Conn.log, serverStreamWindow,
        sinceOpened_cons hopens, Label.creditOn,
        Label.dataReceivedOn] using hc.streams s hs

-- ==== WINDOW_UPDATE

/-- A window is filled up, or left as it is. -/
theorem enqueueWindowUpdate_cases {desired : Nat} (hpos : 0 ≤ avail)
    (hle : avail ≤ int32Max)
    (h : enqueueWindowUpdate c streamId avail desired = .ok (c', w)) :
    (c' = c ∧ w = avail) ∨ (avail < desired ∧ w = desired ∧
        c' = requestWrite (c.emit
          (.windowUpdate streamId (desired - avail)))) := by
  unfold enqueueWindowUpdate at h
  split at h
  · cases h
  next hdesired =>
    have hmax : (int32Max : Int) = 2147483647 := rfl
    have hmod : avail * 2 % 2 ^ 64 = avail * 2 :=
      Int.emod_eq_of_lt (by omega) (by omega)
    split at h
    next hlt =>
      right
      have hbmod : ((desired : Int) - avail).bmod (2 ^ 32) = desired - avail :=
        Int.bmod_eq_of_le (by omega) (by omega)
      simp only [hbmod, Except.ok.injEq] at h
      obtain ⟨rfl, rfl⟩ := h
      refine ⟨by omega, ?_, rfl⟩
      have hfits : ¬ avail + (desired - avail) > int32Max := by omega
      simp only [windowUpdate, if_neg hfits, Option.getD_some]
      omega
    · cases h
      exact .inl ⟨rfl, rfl⟩

theorem creditsPositive_credit (hpos : 0 < increment)
    (h : CreditsPositive c.trace) :
    CreditsPositive (c.emit (.windowUpdate streamId increment)).trace :=
  forall_mem_cons.2 ⟨hpos, h⟩

/-- The windows are in range, and those the server has left. -/
structure RecvGood (c : Conn) : Prop where
  safe : RecvSafe c
  exact : RecvExact c

theorem RecvGood.of_same (hc : RecvGood c) (h : RecvSame c c') : RecvGood c' :=
  ⟨hc.safe.of_same h, RecvLag.of_same hc.exact h⟩

theorem RecvGood.quiet {r : Except Fault Conn} (hc : RecvGood c)
    (h : Ensures (Quiet c) r) : Ensures RecvGood r :=
  h.imp fun _ h => hc.of_same (RecvQuiet.recvSame h.recv)

/-- The connection's window is filled up. -/
theorem recvGood_connUpdate (hids : OwnIds c)
    (hc : RecvGood { c with inWindow := avail })
    (h : enqueueWindowUpdate c 0 avail 16777216 = .ok (c', w)) :
    RecvGood { c' with inWindow := w } := by
  have hwindow : 0 ≤ avail ∧ avail ≤ 16777216 := hc.safe.window
  have hmax : (int32Max : Int) = 2147483647 := rfl
  obtain ⟨rfl, rfl⟩ | ⟨hlt, rfl, rfl⟩ :=
    enqueueWindowUpdate_cases hwindow.1 (by omega) h
  · exact hc
  · rw [requestWrite_eq]
    refine ⟨{
      window := by norm_num
      streams := hc.safe.streams
      positive := creditsPositive_credit (by omega) hc.safe.positive }, ?_⟩
    obtain ⟨hexact, hstreams⟩ := recvExact_iff.1 hc.exact
    refine recvExact_iff.2 ⟨?_, fun s hs => (hstreams s hs).trans ?_⟩
    · simp only [Conn.emit, serverConnWindow_credit, if_true]
      simp only at hexact
      omega
    · have hne : ¬ 0 = s.streamId := Ne.symm (hids.ne_zero s hs)
      simp only [Conn.emit, serverStreamWindow_credit, if_neg hne, add_zero]

/-- A stream's window is filled up, as far as its buffer has room. -/
structure FillsUp (c : Conn) (s : Stream) (w : Int) (c₁ : Conn) : Prop where
  streams : c₁.streams = c.streams
  ctx : c₁.ctx = c.ctx
  inWindow : c₁.inWindow = c.inWindow
  window : 0 ≤ w ∧ w + s.bodySize ≤ c.ctx.getMaxBufferSize
  positive : CreditsPositive c₁.trace
  conn : serverConnWindow c₁.trace = serverConnWindow c.trace
  stream : ∀ initial id, serverStreamWindow initial id c₁.trace =
    serverStreamWindow initial id c.trace +
      if s.streamId = id then w - s.inWindow else 0

/-- So is that of a stream, up to what is buffered. -/
theorem doUpdateWindow_cases (hids : OwnIds c) (hc : RecvSafe c)
    (h : doUpdateWindow c streamId = .ok c') :
    ∃ s c₁ w, s ∈ c.streams ∧ s.streamId = streamId ∧ FillsUp c s w c₁ ∧
      c' = c₁.setStream streamId fun s => { s with inWindow := w } := by
  unfold doUpdateWindow at h
  split at h
  · cases h
  next s hs =>
    obtain ⟨hmem, rfl⟩ := Conn.getStream_some hs
    dsimp only at h
    split at h
    · cases h
    next hbody =>
      obtain ⟨⟨c₁, w⟩, h₁, h⟩ := except_bind_eq_ok.1 h
      cases h
      refine ⟨s, c₁, w, hmem, rfl, ?_, rfl⟩
      have hown := hc.streams s hmem
      have hmax : c.ctx.getMaxBufferSize ≤ int32Max := Nat.min_le_right _ _
      obtain ⟨rfl, rfl⟩ | ⟨hlt, rfl, rfl⟩ :=
        enqueueWindowUpdate_cases hown.1 (by omega) h₁
      · exact ⟨rfl, rfl, rfl, hown, hc.positive, rfl, by simp⟩
      · rw [requestWrite_eq]
        refine ⟨rfl, rfl, rfl, by omega,
          creditsPositive_credit (by omega) hc.positive, ?_, ?_⟩
        · simp only [Conn.emit, serverConnWindow_credit,
            if_neg (hids.ne_zero s hmem), add_zero]
        · intro initial id
          simp only [Conn.emit, serverStreamWindow_credit]

theorem recv_doUpdateWindow (hids : OwnIds c) (hc : RecvSafe c)
    (h : doUpdateWindow c streamId = .ok c') :
    RecvSafe c' ∧ (RecvExact c → RecvExact c') := by
  obtain ⟨s, c₁, w, hs, rfl, hfill, rfl⟩ := doUpdateWindow_cases hids hc h
  have hctx : (c₁.setStream s.streamId fun s => { s with inWindow := w }).ctx =
    c.ctx := hfill.ctx
  refine ⟨{
    window := hfill.inWindow.symm ▸ hc.window
    streams := fun s' hs' => ?_
    positive := hfill.positive }, fun hexact => ?_⟩
  · obtain ⟨t, ht, hcase⟩ := Conn.mem_setStream.1 hs'
    rw [hfill.streams] at ht
    rw [hctx]
    rcases hcase with ⟨hid, rfl⟩ | ⟨-, rfl⟩
    · obtain rfl := stream_eq_of_nodup hids.nodup ht hs hid
      exact hfill.window
    · exact hc.streams s' ht
  · obtain ⟨hwindow, hstreams⟩ := recvExact_iff.1 hexact
    refine recvExact_iff.2 ⟨?_, fun s' hs' => ?_⟩
    · simp only [Conn.setStream, hfill.inWindow, hfill.conn]
      exact hwindow
    · obtain ⟨t, ht, hcase⟩ := Conn.mem_setStream.1 hs'
      rw [hfill.streams] at ht
      have hown := hstreams t ht
      rw [hctx]
      simp only [Conn.setStream, hfill.stream]
      rcases hcase with ⟨hid, rfl⟩ | ⟨hne, rfl⟩
      · obtain rfl := stream_eq_of_nodup hids.nodup ht hs hid
        simp only [if_true]
        omega
      · rw [if_neg (Ne.symm hne), add_zero]
        exact hown

-- ==== DATA

/-- The server keeps to the windows it has left. -/
def RespectsWindows (c : Conn) : Event → Prop
  | .frame f _ =>
    f.type = .data → f.payload.length ≤ serverConnWindow c.trace ∧
        ∀ s ∈ c.streams, s.streamId = f.streamId →
          f.payload.length ≤
            serverStreamWindow c.ctx.getMaxBufferSize s.streamId c.trace
  | _ => True

/-- A DATA frame is not padded, and no stream rejects its octets. -/
def DataCounted (c : Conn) : Event → Prop
  | .frame f _ => f.type = .data → f.padded = false ∧ (f.payload ≠ [] →
        ∀ s ∈ c.streams, s.streamId = f.streamId → s.res = .body ∧
          s.messageBodyForbidden = false ∧
            s.lengthExceeded f.payload.length = false)
  | _ => True

instance (c : Conn) (e : Event) : Decidable (RespectsWindows c e) :=
  e.decidableOfFrame (fun _ _ => inferInstanceAs (Decidable (_ → _)))
    fun e he => by cases e <;> trivial

instance (c : Conn) (e : Event) : Decidable (DataCounted c e) :=
  e.decidableOfFrame (fun _ _ => inferInstanceAs (Decidable (_ → _)))
    fun e he => by cases e <;> trivial

/-- The connection once the octets are counted and given to the
application. -/
def Conn.counted (c : Conn) (s : Stream) (err : Option Errstr) (data : Bytes)
    (ans : Answers) : Conn :=
  ({ c with inWindow := c.inWindow - data.length }.setStream s.streamId
    fun s => { s with
      bodySize := s.bodySize + data.length - ans.consumed
      inWindow := s.inWindow - data.length }).log
    (.onBody s.streamId err data [])

section

variable {s : Stream} {err : Option Errstr} {data : Bytes} {ans : Answers}

theorem OwnIds.counted (hc : OwnIds c) :
    OwnIds (c.counted s err data ans) := by
  refine hc.of_quiet (DataQuiet.ids ?_)
  exact ((dataQuiet_inWindow _ c).trans
    (Changes.setStream (by intro s; exact ⟨rfl, rfl⟩) _ _)).trans (.log rfl _)

/-- Data that fit leave no window negative. -/
theorem RecvSafe.counted (hc : RecvSafe c) (hconn : data.length ≤ c.inWindow)
    (hstream : ∀ t ∈ c.streams, t.streamId = s.streamId →
      data.length ≤ t.inWindow) : RecvSafe (c.counted s err data ans) where
  window := by
    have hwindow := hc.window
    simp only [Conn.counted, Conn.log, Conn.setStream]
    omega
  streams := by
    intro s' hs'
    obtain ⟨t, ht, ⟨hid, rfl⟩ | ⟨-, rfl⟩⟩ := Conn.mem_setStream.1 hs'
    · have hown := hc.streams t ht
      have hlen := hstream t ht hid
      simp only [Conn.counted, Conn.log, Conn.setStream]
      omega
    · exact hc.streams s' ht
  positive := (sameCredit_cons rfl).positive hc.positive

/-- With the frame counted the windows are exact again. -/
theorem RecvLag.counted (hc : RecvLag data.length s.streamId c) :
    RecvExact (c.counted s err data ans) := by
  have hsame : SameCredit c.trace (c.counted s err data ans).trace :=
    sameCredit_cons rfl
  refine recvExact_iff.2 ⟨?_, fun s' hs' => ?_⟩
  · rw [hsame.conn, ← hc.window]
    rfl
  · rw [hsame.stream]
    obtain ⟨t, ht, ⟨hid, rfl⟩ | ⟨hne, rfl⟩⟩ := Conn.mem_setStream.1 hs'
    · have hown := hc.streams t ht
      rwa [if_pos hid] at hown
    · have hown := hc.streams s' ht
      rwa [if_neg hne, sub_zero] at hown

section

variable (hids : OwnIds c) (hsafe : RecvSafe c)
  (hlag : RecvLag data.length s.streamId c) (hconn : data.length ≤ c.inWindow)
include hids hsafe hlag hconn

/-- What is taken is counted on both windows. -/
theorem recv_acceptData
    (hstream : ∀ t ∈ c.streams, t.streamId = s.streamId →
      data.length ≤ t.inWindow) :
    Ensures RecvGood (acceptData c s f data ans) := by
  have hgood : ∀ err, RecvGood (c.counted s err data ans) :=
    fun err => ⟨hsafe.counted hconn hstream, hlag.counted⟩
  refine .ite (.ite ((hgood _).quiet quietWalk.sendRstStream)
    ((hgood _).quiet quietWalk.giveUp))
    (.ite (flowQuiet_closeResponse.imp fun _ h =>
      (hgood _).of_same (BlockQuiet.recvSame h.block)) fun c' h => ?_)
  obtain ⟨⟨c₁, w⟩, h₁, h⟩ := except_bind_eq_ok.1 h
  have hids₁ : ∀ err, OwnIds (c.counted s err data ans) :=
    fun _ => hids.counted
  have hgood₂ := recvGood_connUpdate (hids₁ _) (hgood _) h₁
  have hids₂ := (hids₁ _).of_quiet (DataQuiet.ids
    ((dataWalk.enqueueWindowUpdate _ h₁).trans (dataQuiet_inWindow w _)))
  obtain ⟨hsafe', hexact'⟩ := recv_doUpdateWindow hids₂ hgood₂.safe h
  exact ⟨hsafe', hexact' hgood₂.exact⟩

/-- Data that are not for a body would not be counted. -/
theorem recv_handleStreamData (hs : s ∈ c.streams)
    (hlen : data.length ≤ s.inWindow)
    (hcounted : data ≠ [] → s.res = .body ∧ s.messageBodyForbidden = false ∧
      s.lengthExceeded data.length = false) :
    Ensures RecvGood (handleStreamData c s f data ans) := by
  -- a frame that is rejected is empty
  have hreject : (data ≠ [] → False) →
      Ensures RecvGood (rejectData c s.streamId) := by
    intro hnone
    obtain rfl : data = [] := by
      by_contra hne
      exact hnone hne
    exact RecvGood.quiet ⟨hsafe, hlag.exact⟩
      (quietWalk.resetStream (by decide))
  refine .dite (fun hres => hreject fun hne => hres (hcounted hne).1) fun _ =>
    .dite (fun hforbidden => hreject fun hne => ?_) fun _ =>
      .dite (fun hexceeded => hreject fun hne => ?_) fun _ =>
        .dite (fun hfull => ?_) fun _ => ?_
  · rw [(hcounted hne).2.1] at hforbidden
    exact absurd hforbidden.1 (by decide)
  · rw [(hcounted hne).2.2] at hexceeded
    cases hexceeded
  · have hown := (hsafe.streams s hs).2
    have hfull : s.bodySize + data.length > c.ctx.getMaxBufferSize := hfull
    omega
  · have hset : FlowQuiet c (c.setStream s.streamId fun s =>
        { s with remaining := s.remaining.map (· - data.length) }) :=
      .setStream (by intro s; exact ⟨rfl, rfl⟩) _ c
    have hsame := BlockQuiet.recvSame hset.block
    refine recv_acceptData (hids.of_quiet (FlowQuiet.ids hset))
      (hsafe.of_same hsame) (hlag.of_same hsame) hconn ?_
    intro t ht hid
    obtain ⟨u, hu, hid', hwin, -⟩ := hsame.streams t ht
    obtain rfl := stream_eq_of_nodup hids.nodup hu hs (hid'.symm.trans hid)
    rw [hwin]
    exact hlen

end

end

section

variable {ans : Answers} (hsafe : RecvSafe c) (hexact : RecvExact c)
  (hrespects : RespectsWindows c (.frame f ans))
  (hcounted : DataCounted c (.frame f ans))
include hsafe hexact hrespects hcounted

/-- Data of a stream that has gone count for the connection. -/
theorem recv_handleDataFrame (htype : f.type = .data) (hids : OwnIds c) :
    Ensures (fun r => RecvSafe r.1 ∧ (r.2 = none → RecvExact r.1))
      (handleDataFrame (c.received f) f ans) := by
  obtain ⟨hconn, hstream⟩ := hrespects htype
  obtain ⟨hpadded, haccept⟩ := hcounted htype
  have hsafe₀ : RecvSafe (c.received f) := hsafe.received
  have hlag := hexact.received htype
  obtain ⟨hwindow, hstreams⟩ := recvExact_iff.1 hexact
  unfold handleDataFrame
  split
  · exact .ok ⟨hsafe₀, fun he => by cases he⟩
  next data hdata =>
    obtain rfl : data = f.payload := by
      unfold decodeDataPayload at hdata
      split at hdata
      · cases hdata
      · rw [hpadded] at hdata
        cases hdata
        rfl
    split
    next hget =>
      refine .ite (.bind (P := fun r =>
        RecvGood { r.1 with inWindow := r.2 }) (fun r h₁ => ?_) fun _ h =>
          .ok ⟨h.safe, fun _ => h.exact⟩) (.ok ⟨hsafe₀, fun he => by cases he⟩)
      · have hids₀ : OwnIds (c.received f) := { hids with }
        have hsafe₁ : RecvSafe { c.received f with
            inWindow := (c.received f).inWindow - f.payload.length } := by
          have hrange : c.inWindow ≤ 16777216 := hsafe.window.2
          refine { hsafe₀ with window := ?_ }
          simp only [Conn.received, Conn.log]
          omega
        refine recvGood_connUpdate hids₀ ⟨hsafe₁,
          recvExact_iff.2 ⟨hlag.window, fun s hs => ?_⟩⟩ h₁
        have hown := hlag.streams s hs
        have hne : s.streamId ≠ f.streamId := by
          intro hid
          have hfind := find?_eq_none.1 hget s hs
          simp [hid] at hfind
        rwa [if_neg hne, sub_zero] at hown
    next s hget =>
      obtain ⟨hmem, hid⟩ := Conn.getStream_some hget
      have hs : s ∈ c.streams := hmem
      have hids₀ : OwnIds (c.received f) := { hids with }
      exact .bind (recv_handleStreamData hids₀ hsafe₀ (hid ▸ hlag)
        (hwindow ▸ hconn) hmem (hstreams s hs ▸ hstream s hs hid)
        fun hne => haccept hne s hs hid) fun _ h =>
          .ok ⟨h.safe, fun _ => h.exact⟩

-- ==== runs

/-- One case per frame type. -/
theorem recv_handled {e : Option ConnError} (hbase : Base c)
    (h : Handled (c.received f) f ans c' e) :
    RecvSafe c' ∧ (e = none → RecvExact c') := by
  have hother : f.type ≠ .data → RecvSame (c.received f) c' →
      RecvSafe c' ∧ (e = none → RecvExact c') := by
    intro htype hsame
    have hsame := (recvSame_received htype).trans hsame
    exact ⟨hsafe.of_same hsame, fun _ => RecvLag.of_same hexact hsame⟩
  cases h with
  | rejected err hsettings =>
    exact ⟨hsafe.received, fun he => absurd he (by simp)⟩
  | ignored hread htype =>
    exact hother (fun h => by simp [h] at htype) (RecvQuiet.recvSame (.refl _))
  | data hread htype h =>
    exact recv_handleDataFrame hsafe hexact hrespects hcounted htype
      hbase.ids _ h
  | headers hread htype h =>
    exact hother (by simp [htype])
      (BlockQuiet.recvSame (blockQuiet_handleHeadersFrame h))
  | quiet hread htype h =>
    exact hother (fun h => by simp [h] at htype) (RecvQuiet.recvSame h.recv)
  | settings hread htype hlength h hnext =>
    have hsame := RecvQuiet.recvSame (recvQuiet_handleSettingsFrame _ h)
    exact hother (by simp [htype]) { hsame with }
  | windowUpdate hread htype h =>
    exact hother (by simp [htype])
      (RecvQuiet.recvSame (recvQuiet_handleWindowUpdateFrame _ h))
  | continuation hread htype h =>
    exact hother (by simp [htype])
      (BlockQuiet.recvSame (blockQuiet_expectContinuationOfHeaders h))

end

/-- The application takes octets out of the buffer of a stream. -/
theorem RecvInv.consumed (hc : RecvInv c) :
    RecvInv (c.setStream streamId fun s =>
      { s with bodySize := s.bodySize - n }) := by
  refine ⟨{ hc.safe with streams := fun s' hs' => ?_ },
    fun hstate => ⟨(hc.exact hstate).window, fun s' hs' => ?_⟩⟩
  · obtain ⟨t, ht, ⟨-, rfl⟩ | ⟨-, rfl⟩⟩ := Conn.mem_setStream.1 hs'
    · have hown := hc.safe.streams t ht
      simp only [Conn.setStream]
      omega
    · exact hc.safe.streams s' ht
  · obtain ⟨t, ht, ⟨-, rfl⟩ | ⟨-, rfl⟩⟩ := Conn.mem_setStream.1 hs'
    · exact (hc.exact hstate).streams t ht
    · exact (hc.exact hstate).streams s' ht

/-- What one event keeps. -/
theorem recvInv_turn {e : Event} (hc : RecvInv c) (hbase : Base c)
    (hrespects : RespectsWindows c e) (hcounted : DataCounted c e)
    (h : Turn c e c') : RecvInv c' := by
  cases h with
  | writes h => exact hc.of_same (RecvQuiet.recvSame h.recv)
  | @opens r _ h =>
    have hopened : RecvInv (c.opened r) :=
      ⟨hc.safe.opened, fun hstate => (hc.exact hstate).opened⟩
    exact hopened.of_same (RecvQuiet.recvSame h.recv)
  | frame hstate h hc' =>
    obtain ⟨hsafe, hexact⟩ :=
      recv_handled hc.safe (hc.exact hstate) hrespects hcounted hbase h
    rcases hc' with ⟨he, rfl⟩ | ⟨hquiet, hclosing⟩
    · exact ⟨hsafe, fun _ => hexact he⟩
    · exact ⟨hsafe.of_same (RecvQuiet.recvSame hquiet.recv), fun hopen =>
        absurd hclosing hopen⟩
  | @updates streamId consumed s _ hs hconsumed h =>
    have htaken : RecvInv (c.setStream streamId fun s =>
        { s with bodySize := s.bodySize - consumed }) := hc.consumed
    have hids : OwnIds (c.setStream streamId fun s =>
        { s with bodySize := s.bodySize - consumed }) :=
      hbase.ids.of_quiet
        (DataQuiet.ids (.setStream (by intro s; exact ⟨rfl, rfl⟩) _ c))
    obtain ⟨hsafe, hexact⟩ := recv_doUpdateWindow hids htaken.safe h
    exact ⟨hsafe, fun hstate =>
      hexact (htaken.exact (mt (dataQuiet_updates h).closing hstate))⟩

end

theorem recvInv_createConnection (ctx : Context) :
    RecvInv (createConnection ctx) where
  safe := {
    window := ⟨Int.natCast_nonneg _, by
      show ((65535 : Nat) : Int) ≤ 16777216
      norm_num⟩
    streams := by
      intro s hs
      cases hs
    positive := forall_mem_singleton.2 trivial }
  exact := fun _ => {
    window := rfl
    streams := by
      intro s hs
      cases hs }

/-- If the server keeps to its windows and each of its DATA frames is counted,
the recorded windows are those it has left, and every increment the client
sends is positive. -/
theorem recv_window_of_dataCounted (ctx : Context) (es : List Event)
    (hmeets : Meets step (fun c e => RespectsWindows c e ∧ DataCounted c e)
      (createConnection ctx) es) (c : Conn)
    (hrun : es.foldlM step (createConnection ctx) = .ok c) :
    CreditsPositive c.trace ∧ (c.state ≠ .isClosing →
      c.inWindow = serverConnWindow c.trace ∧ ∀ s ∈ c.streams,
        s.inWindow = serverStreamWindow c.ctx.getMaxBufferSize s.streamId
          c.trace) := by
  have hinv : RecvInv c := run_base (fun c e c' hc hbase hcond hstep =>
      recvInv_turn hc hbase hcond.1 hcond.2 (turn_of_step hstep))
    (recvInv_createConnection ctx) hmeets hrun
  exact ⟨hinv.safe.positive, fun hstate => recvExact_iff.1 (hinv.exact hstate)⟩

/-- A response whose body is taken out of the buffer at once. -/
def takenEvents : List Event :=
  [.frame ⟨.settings, 0, 0, []⟩ acceptAll,
    .open (plainRequest (ascii "GET") none),
    .frame ⟨.headers, 4, 1, [0x88]⟩ acceptAll,
    .frame ⟨.data, 0, 1, ascii "abc"⟩ { acceptAll with consumed := 3 }]

theorem recv_window_of_takenEvents :
    ∃ c, takenEvents.foldlM step (createConnection ⟨4, 100⟩) = .ok c ∧
      c.inWindow = 16777216 ∧ c.streams.map (·.inWindow) = [4] ∧
      CreditsPositive c.trace ∧ (c.state ≠ .isClosing →
        c.inWindow = serverConnWindow c.trace ∧ ∀ s ∈ c.streams,
          s.inWindow = serverStreamWindow c.ctx.getMaxBufferSize s.streamId
            c.trace) := by
  have hreaches : reaches step
      (fun c => c.inWindow == 16777216 && c.streams.map (·.inWindow) == [4])
      (createConnection ⟨4, 100⟩) takenEvents = true := by
    decide +kernel
  obtain ⟨c, hrun, htest⟩ := exists_of_reaches hreaches
  simp only [Bool.and_eq_true, beq_iff_eq] at htest
  exact ⟨c, hrun, htest.1, htest.2, recv_window_of_dataCounted _ _
    (meets_iff.mp (by decide +kernel)) c hrun⟩

/-- The padding of a frame is not counted, and neither is a frame that comes
before the response. -/
theorem recv_window_of_padded_and_rejected :
    reaches step (fun c => c.state == .open && c.inWindow == 16777216 &&
        serverConnWindow c.trace == 16777214)
      (createConnection ⟨65536, 100⟩)
      [.frame ⟨.settings, 0, 0, []⟩ acceptAll,
        .open (plainRequest (ascii "GET") none),
        .frame ⟨.headers, 4, 1, [0x88]⟩ acceptAll,
        .frame ⟨.data, 8, 1, [1, 0x61, 0]⟩ acceptAll] = true ∧
    reaches step (fun c => c.state == .open && c.inWindow == 65535 &&
        serverConnWindow c.trace == 65532)
      (createConnection ⟨65536, 100⟩)
      [.frame ⟨.settings, 0, 0, []⟩ acceptAll,
        .open (plainRequest (ascii "GET") none),
        .frame ⟨.data, 0, 1, ascii "abc"⟩ acceptAll] = true := by
  decide +kernel

end H2o.Http2Client
