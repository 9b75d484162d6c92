/-
The windows the HTTP/2 client sends within.

`Bounded` says that the recorded windows are not larger than what the peer
allows, and `Stream.Exact` that the window of a stream is equal to it. Both are
kept by all that does not count for the ledger (`SendSame`), by the DATA frames
that are sent, and by the opening of a stream. What a frame from the peer does
to them is in `Credit`.
-/
import H2o.Http2Client.Proofs.Turn

namespace H2o.Http2Client

open Http2 List

-- ==== the ledger

/-- What does not count for the windows to send. -/
def Label.sendQuiet : Label → Bool
  | recv _ => false
  | sent (.data ..) => false
  | opened .. => false
  | _ => true

/-- The labels between leave what is sent and what may be sent as it was. -/
structure SameLedger (t t' : List Label) : Prop where
  settings : peerSettingsOf t' = peerSettingsOf t
  connSent : connSent t' = connSent t
  connLimit : connLimit t' = connLimit t
  streamSent : ∀ streamId, streamSent streamId t' = streamSent streamId t
  streamLimit : ∀ streamId, streamLimit streamId t' = streamLimit streamId t
  ledger : LedgerOk t → LedgerOk t'

theorem SameLedger.refl (t : List Label) : SameLedger t t :=
  ⟨rfl, rfl, rfl, fun _ => rfl, fun _ => rfl, id⟩

theorem SameLedger.trans {t t' t'' : List Label} (h : SameLedger t t')
    (h' : SameLedger t' t'') : SameLedger t t'' where
  settings := h'.settings.trans h.settings
  connSent := h'.connSent.trans h.connSent
  connLimit := h'.connLimit.trans h.connLimit
  streamSent := fun id => (h'.streamSent id).trans (h.streamSent id)
  streamLimit := fun id => (h'.streamLimit id).trans (h.streamLimit id)
  ledger := fun hl => h'.ledger (h.ledger hl)

/-- A label that is no data and no credit changes nothing. -/
theorem sameLedger_label {l : Label} {t : List Label}
    (hopens : ∀ id, l.opens id = false)
    (hsent : l.dataSent = 0 ∧ ∀ id, l.dataSentOn id = 0)
    (hinc : ∀ id, l.incrementOn id = 0)
    (hsettings : peerSettingsOf (l :: t) = peerSettingsOf t)
    (hledger : LedgerOk t → LedgerOk (l :: t)) : SameLedger t (l :: t) := by
  refine ⟨hsettings, ?_, ?_, ?_, ?_, hledger⟩
  · simp [connSent, hsent.1]
  · simp [connLimit, hinc]
  · intro id
    simp [streamSent, sinceOpened_cons (hopens id), hsent.2]
  · intro id
    simp [streamLimit, hsettings, sinceOpened_cons (hopens id), hinc]

theorem sameLedger_cons {l : Label} (hl : l.sendQuiet = true)
    (t : List Label) : SameLedger t (l :: t) := by
  refine sameLedger_label ?_ ?_ ?_ ?_ fun hledger => ⟨?_, hledger⟩
  · intro id
    cases l <;> first | rfl | cases hl
  · cases l with
    | sent f => cases f <;> first | exact ⟨rfl, fun _ => rfl⟩ | cases hl
    | _ => exact ⟨rfl, fun _ => rfl⟩
  · intro id
    cases l <;> first | rfl | cases hl
  · cases l <;> first | rfl | cases hl
  · cases l with
    | sent f => cases f <;> trivial
    | _ => trivial

-- ==== the windows

/-- The window of the stream is what it may still send. -/
def Stream.Exact (t : List Label) (s : Stream) : Prop :=
  s.outWindow + streamSent s.streamId t = streamLimit s.streamId t

/-- The windows are within what the peer allows. -/
structure Bounded (c : Conn) : Prop where
  settings : c.peerSettings = peerSettingsOf c.trace
  ledger : LedgerOk c.trace
  outWindow : 0 ≤ c.outWindow ∧ c.outWindow + connSent c.trace ≤
    connLimit c.trace
  streams : ∀ s ∈ c.streams, 0 ≤ s.outWindow ∧
    s.outWindow + streamSent s.streamId c.trace ≤
      streamLimit s.streamId c.trace

/-- The invariant of the send side. -/
structure SendInv (c : Conn) : Prop where
  bounded : Bounded c
  exact : c.state ≠ .isClosing → ∀ s ∈ c.streams, s.Exact c.trace

-- ==== send-quiet changes

def Stream.sendWindow (s : Stream) := (s.streamId, s.outWindow)

def Kept.sending (k : Kept) := (k.peerSettings, k.outWindow)

/-- A change that does not count for the windows to send. -/
abbrev SendQuiet : Conn → Conn → Prop :=
  Changes Kept.sending Stream.sendWindow Label.sendQuiet

section

variable {c c' : Conn}

theorem DataQuiet.send (h : DataQuiet c c') : SendQuiet c c' := by
  refine h.mono (fun _ _ h => (congrArg Kept.sending h :)) (fun _ _ h =>
    (congrArg (fun p => (p.1, p.2.1)) h :)) fun l hl => ?_
  cases l with
  | sent f => cases f <;> first | rfl | cases hl
  | _ => first | rfl | cases hl

theorem BlockQuiet.send (h : BlockQuiet c c') : SendQuiet c c' := by
  refine h.mono (fun _ _ h => (congrArg Kept.sending h :)) (fun _ _ h =>
    (congrArg (fun p => (p.1, p.2.1)) h :)) fun l hl => ?_
  cases l with
  | sent f => cases f <;> first | rfl | cases hl
  | _ => exact hl

/-- What the windows to send depend on is the same. -/
structure SendSame (c c' : Conn) : Prop where
  kept : c'.kept.sending = c.kept.sending
  closing : c.state = .isClosing → c'.state = .isClosing
  streams : ∀ s' ∈ c'.streams, ∃ s ∈ c.streams, s'.sendWindow = s.sendWindow
  ledger : SameLedger c.trace c'.trace

theorem SendQuiet.same (h : SendQuiet c c') : SendSame c c' :=
  { h with
    ledger := trace_induction h.trace (.refl _) fun _ t hl ht =>
      ht.trans (sameLedger_cons hl t) }

/-- Nor does a frame that gives none. -/
theorem sendSame_received {f : Frame} (hsettings : announces c.trace f = false)
    (hinc : ∀ id, (Label.recv f).incrementOn id = 0) :
    SendSame c (c.received f) where
  kept := rfl
  closing h := h
  streams s hs := ⟨s, hs, rfl⟩
  ledger := sameLedger_label (fun _ => rfl) ⟨rfl, fun _ => rfl⟩ hinc
    (by simp [peerSettingsOf, hsettings]) fun hledger => ⟨trivial, hledger⟩

theorem SendSame.trans {c'' : Conn} (h : SendSame c c')
    (h' : SendSame c' c'') : SendSame c c'' where
  kept := h'.kept.trans h.kept
  closing := fun hc => h'.closing (h.closing hc)
  streams s'' hs'' := by
    obtain ⟨s', hs', hwin'⟩ := h'.streams s'' hs''
    obtain ⟨s, hs, hwin⟩ := h.streams s' hs'
    exact ⟨s, hs, hwin'.trans hwin⟩
  ledger := h.ledger.trans h'.ledger

/-- The streams that are left have the windows they had. -/
theorem SendSame.stream (h : SendSame c c') {s' : Stream}
    (hs' : s' ∈ c'.streams) :
    ∃ s ∈ c.streams, s'.streamId = s.streamId ∧
      s'.outWindow = s.outWindow := by
  obtain ⟨s, hs, hpart⟩ := h.streams s' hs'
  simp only [Stream.sendWindow, Prod.mk.injEq] at hpart
  exact ⟨s, hs, hpart⟩

theorem Bounded.of_same (hc : Bounded c) (h : SendSame c c') : Bounded c' := by
  have hsame := h.ledger
  have hkept := h.kept
  simp only [Kept.sending, Conn.kept, Prod.mk.injEq] at hkept
  obtain ⟨hsettings, hwindow⟩ := hkept
  refine {
    settings := by rw [hsettings, hsame.settings, hc.settings]
    ledger := hsame.ledger hc.ledger
    outWindow := ?_
    streams := fun s' hs' => ?_ }
  · rw [hwindow, hsame.connSent, hsame.connLimit]
    exact hc.outWindow
  · obtain ⟨s, hs, hid, hwin⟩ := h.stream hs'
    rw [hid, hwin, hsame.streamSent, hsame.streamLimit]
    exact hc.streams s hs

/-- What is exact before is exact after. -/
theorem SendSame.exact {P : Nat → Prop} (h : SendSame c c')
    (hc : ∀ s ∈ c.streams, P s.streamId → s.Exact c.trace) :
    ∀ s ∈ c'.streams, P s.streamId → s.Exact c'.trace := by
  intro s' hs' hp
  obtain ⟨s, hs, hid, hwin⟩ := h.stream hs'
  unfold Stream.Exact
  rw [hid, hwin, h.ledger.streamSent, h.ledger.streamLimit]
  exact hc s hs (hid ▸ hp)

/-- So the account stays balanced. -/
theorem SendInv.of_same (hc : SendInv c) (h : SendSame c c') : SendInv c' where
  bounded := hc.bounded.of_same h
  exact := fun hstate s' hs' =>
    h.exact (P := fun _ => True) (fun s hs _ =>
      hc.exact (mt h.closing hstate) s hs) s' hs' trivial

-- ==== DATA frames

section

variable {streamId : Nat} {payload : Bytes} {endStream : Bool} {t : List Label}

/-- Data count for their stream. -/
theorem streamSent_data :
    streamSent streamId (.sent (.data streamId payload endStream) :: t) =
      payload.length + streamSent streamId t := by
  simp [streamSent, Label.dataSentOn,
    sinceOpened_cons (l := .sent (.data streamId payload endStream)) rfl]

theorem streamSent_data_of_ne {id : Nat} (hid : streamId ≠ id) :
    streamSent id (.sent (.data streamId payload endStream) :: t) =
      streamSent id t := by
  simp [streamSent, Label.dataSentOn, hid,
    sinceOpened_cons (l := .sent (.data streamId payload endStream)) rfl]

theorem streamLimit_data (id : Nat) :
    streamLimit id (.sent (.data streamId payload endStream) :: t) =
      streamLimit id t := by
  simp [streamLimit, Label.incrementOn, peerSettingsOf,
    sinceOpened_cons (l := .sent (.data streamId payload endStream)) rfl]

end

/-- The window of each stream changes by what it sends. -/
theorem sends_stream (hc : Bounded c) (h : Sends c c') {s' : Stream}
    (hs' : s' ∈ c'.streams) :
    ∃ s ∈ c.streams, s'.streamId = s.streamId ∧ 0 ≤ s'.outWindow ∧
      s'.outWindow + streamSent s.streamId c'.trace =
        s.outWindow + streamSent s.streamId c.trace ∧
      streamLimit s.streamId c'.trace = streamLimit s.streamId c.trace := by
  obtain ⟨s, room, buf, n, hs, hemits, rfl⟩ := h
  obtain ⟨hmem, -⟩ := Conn.getStream_some hs
  have hlen : (buf.take n).length = n := length_take_of_le hemits.length
  obtain ⟨-, hsn, -⟩ :=
    calcMaxPayloadSize_le hemits.fits hc.outWindow.1 (hc.streams s hmem).1
  obtain ⟨t, ht, ⟨-, rfl⟩ | ⟨hne, rfl⟩⟩ := Conn.mem_setStream.1 hs'
  · refine ⟨s, hmem, rfl, ?_, ?_, streamLimit_data _⟩
    · simp only [Stream.consume]
      omega
    · simp only [Stream.consume, emitData, Conn.emit, Conn.setStream,
        streamSent_data]
      omega
  · refine ⟨s', ht, rfl, (hc.streams s' ht).1, ?_, streamLimit_data _⟩
    simp only [emitData, Conn.emit, Conn.setStream,
      streamSent_data_of_ne (Ne.symm hne)]

/-- A frame keeps to the window, so to the limit. -/
theorem bounded_sends (hc : Bounded c) (h : Sends c c') : Bounded c' := by
  have hstream := fun s' => @sends_stream c c' hc h s'
  obtain ⟨s, room, buf, n, hs, hemits, rfl⟩ := h
  obtain ⟨hmem, -⟩ := Conn.getStream_some hs
  have hlen : (buf.take n).length = n := length_take_of_le hemits.length
  obtain ⟨hcn, hsn, hmax⟩ :=
    calcMaxPayloadSize_le hemits.fits hc.outWindow.1 (hc.streams s hmem).1
  have hconn := hc.outWindow.2
  have hown := (hc.streams s hmem).2
  refine {
    settings := hc.settings
    ledger := ⟨⟨?_, ?_, ?_⟩, hc.ledger⟩
    outWindow := ⟨?_, ?_⟩
    streams := fun s' hs' => ?_ }
  · rw [hlen, ← hc.settings]
    exact hmax
  · omega
  · omega
  · simp only [emitData, Conn.setStream]
    omega
  · unfold connSent connLimit at hconn ⊢
    simp only [emitData, Conn.emit, Conn.setStream, total_cons,
      Label.dataSent, hlen]
    omega
  · obtain ⟨t, ht, hid, hpos, hsent, hlimit⟩ := hstream s' hs'
    rw [hid, hsent, hlimit]
    exact ⟨hpos, (hc.streams t ht).2⟩

theorem SendInv.of_sends (hc : SendInv c) (h : Sends c c') : SendInv c' where
  bounded := bounded_sends hc.bounded h
  exact := by
    intro hstate s' hs'
    obtain ⟨s, hs, hid, -, hsent, hlimit⟩ := sends_stream hc.bounded h hs'
    unfold Stream.Exact
    rw [hid, hsent, hlimit]
    exact hc.exact (mt (recvQuiet_sends h).closing hstate) s hs

/-- Along a whole write. -/
theorem SendInv.of_writes (hc : SendInv c) (h : Writes c c') : SendInv c' := by
  refine h.invariant ?_ ?_ hc
  · intro c₁ c₂ hc₁ hquiet
    exact hc₁.of_same (SendQuiet.same (DataQuiet.send hquiet.data))
  · intro c₁ c₂ hc₁ hsends
    exact hc₁.of_sends hsends

-- ==== new streams

section

variable {streamId : Nat} {isHead : Bool} {t : List Label}

theorem ledger_opened_of_ne {id : Nat} (hid : streamId ≠ id) :
    streamSent id (.opened streamId isHead :: t) = streamSent id t ∧
      streamLimit id (.opened streamId isHead :: t) = streamLimit id t := by
  have hopens : (Label.opened streamId isHead).opens id = false := by
    simpa [Label.opens] using hid
  constructor
  · simp [streamSent, sinceOpened_cons hopens, Label.dataSentOn]
  · simp [streamLimit, sinceOpened_cons hopens, Label.incrementOn,
      peerSettingsOf]

end

/-- A stream of a connection on which one is opened. -/
theorem opened_stream {r : NewRequest} (hc : Bounded c) {s' : Stream}
    (hs' : s' ∈ (c.opened r).streams) :
    (0 ≤ s'.outWindow ∧ s'.Exact (c.opened r).trace) ∨ (s' ∈ c.streams ∧
        streamSent s'.streamId (c.opened r).trace =
          streamSent s'.streamId c.trace ∧
        streamLimit s'.streamId (c.opened r).trace =
          streamLimit s'.streamId c.trace) := by
  obtain rfl | ⟨hs', hne⟩ := mem_opened hs'
  case inr =>
    right
    exact ⟨hs', ledger_opened_of_ne hne⟩
  case inl =>
    left
    refine ⟨Int.natCast_nonneg _, ?_⟩
    simp only [Stream.Exact, NewRequest.setup, setupStream, Conn.opened,
      registerStream, Conn.log, hc.settings]
    simp [streamSent, streamLimit, sinceOpened_opened, peerSettingsOf]

/-- A new stream has its window to send. -/
theorem SendInv.opened {r : NewRequest} (hc : SendInv c) :
    SendInv (c.opened r) := by
  have hb := hc.bounded
  refine ⟨?_, ?_⟩
  · refine {
      settings := hb.settings
      ledger := ⟨trivial, hb.ledger⟩
      outWindow := ?_
      streams := fun s' hs' => ?_ }
    · simpa [Conn.opened, Conn.log, registerStream, connSent, connLimit,
        Label.dataSent, Label.incrementOn] using hb.outWindow
    · obtain ⟨hpos, hexact⟩ | ⟨hmem, hsent, hlimit⟩ := opened_stream hb hs'
      · exact ⟨hpos, hexact.le⟩
      · rw [hsent, hlimit]
        exact hb.streams s' hmem
  · intro hstate s' hs'
    obtain ⟨hpos, hexact⟩ | ⟨hmem, hsent, hlimit⟩ := opened_stream hb hs'
    · exact hexact
    · unfold Stream.Exact
      rw [hsent, hlimit]
      exact hc.exact hstate s' hmem

end

end H2o.Http2Client
