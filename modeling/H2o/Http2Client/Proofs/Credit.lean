/-
The credit the HTTP/2 client is given to send.

A WINDOW_UPDATE frame raises the window of its stream or of the connection, a
SETTINGS frame those of all streams (`Raises`). `handle_settings_frame`
computes the change of the initial window size on unsigned integers of 32 bits,
so that a smaller size becomes an increment of almost 2³², and
`h2o_http2_window_update` refuses it: the windows of the open streams stay as
they are, and the client goes on sending. An increase that makes a window
overflow is refused in the same way. `SettingsFit` is the condition that no
SETTINGS frame does either, and then the ledger holds in every run.
-/
import H2o.Http2Client.Proofs.SendWindow

namespace H2o.Http2Client

open Http2 Lib List

variable {f : Frame} {ans : Answers} {t : List Label} {delta : Int}
  {increment streamId : Nat} {e : Option ConnError} {ids : List Nat}

section

variable {c c' : Conn}

-- ==== credit

theorem connLimit_recv (f : Frame) (t : List Label) :
    connLimit (.recv f :: t) = connLimit t + (Label.recv f).incrementOn 0 := by
  simp [connLimit]
  omega

/-- The limit rises by the increment received. -/
theorem streamLimit_recv (hsettings : announces t f = false) (id : Nat) :
    streamLimit id (.recv f :: t) = streamLimit id t +
      (Label.recv f).incrementOn id := by
  simp [streamLimit, peerSettingsOf, hsettings,
    sinceOpened_cons (l := .recv f) rfl]
  omega

theorem connSent_recv (f : Frame) (t : List Label) :
    connSent (.recv f :: t) = connSent t := by
  simp [connSent, Label.dataSent]

theorem streamSent_recv (f : Frame) (t : List Label) (id : Nat) :
    streamSent id (.recv f :: t) = streamSent id t := by
  simp [streamSent, sinceOpened_cons (l := .recv f) rfl, Label.dataSentOn]

/-- A frame sends nothing. -/
theorem bounded_received (hc : Bounded c)
    (hsettings : announces c.trace f = false) : Bounded (c.received f) := by
  refine { hc with
    settings := hc.settings.trans ?_
    ledger := ⟨trivial, hc.ledger⟩
    outWindow := ?_
    streams := fun s hs => ?_ }
  · simp [Conn.received, Conn.log, peerSettingsOf, hsettings]
  · have hwindow := hc.outWindow
    simp only [Conn.received, Conn.log, connSent_recv, connLimit_recv]
    omega
  · have hstream := hc.streams s hs
    simp only [Conn.received, Conn.log, streamSent_recv,
      streamLimit_recv hsettings]
    omega

/-- The windows are within what the peer allows, and those of the streams are
equal to it unless an error is found. -/
def Balanced (e : Option ConnError) (c : Conn) : Prop :=
  Bounded c ∧ (e = none → ∀ s ∈ c.streams, s.Exact c.trace)

theorem Balanced.of_same (hc : Balanced e c) (h : SendSame c c') :
    Balanced e c' :=
  ⟨hc.1.of_same h, fun he s hs => h.exact (P := fun _ => True)
    (fun s hs _ => hc.2 he s hs) s hs trivial⟩

theorem Bounded.failed {err : ConnError} (hb : Bounded c) :
    Balanced (some err) c :=
  ⟨hb, fun he => absurd he (by simp)⟩

/-- The windows of some streams are raised, and nothing else changes. -/
structure Raises (ids : List Nat) (delta : Int) (c c' : Conn) : Prop where
  kept : c'.kept = c.kept
  state : c'.state = c.state
  trace : c'.trace = c.trace
  streamIds : c'.streams.map (·.streamId) = c.streams.map (·.streamId)
  streams : ∀ s' ∈ c'.streams, ∃ s ∈ c.streams, s'.streamId = s.streamId ∧
    s'.outWindow = s.outWindow + if s.streamId ∈ ids then delta else 0

/-- One window is raised, the others stay. -/
theorem raises_single (hn : (c.streams.map (·.streamId)).Nodup)
    (h : updateStreamOutputWindow c streamId delta = .ok (c', true)) :
    Raises [streamId] delta c c' := by
  obtain ⟨s, hs, ⟨hfalse, -⟩ | ⟨-, sending, rfl⟩⟩ :=
    updateStreamOutputWindow_cases h
  · cases hfalse
  · obtain ⟨hmem, rfl⟩ := Conn.getStream_some hs
    refine ⟨rfl, rfl, rfl, map_streamId_setStream fun _ _ => id, ?_⟩
    intro s' hs'
    obtain ⟨t, ht, ⟨hid, rfl⟩ | ⟨hne, rfl⟩⟩ := Conn.mem_setStream.1 hs'
    · obtain rfl := stream_eq_of_nodup hn ht hmem hid
      exact ⟨t, ht, rfl, by simp⟩
    · exact ⟨s', ht, rfl, by simp [hne]⟩

theorem Raises.nil (delta : Int) (c : Conn) : Raises [] delta c c :=
  ⟨rfl, rfl, rfl, rfl, fun s hs => ⟨s, hs, rfl, by simp⟩⟩

/-- One after the other, each once. -/
theorem Raises.cons {c₁ : Conn}
    {delta : Int} (hid : streamId ∉ ids) (h : Raises [streamId] delta c c₁)
    (h' : Raises ids delta c₁ c') : Raises (streamId :: ids) delta c c' where
  kept := h'.kept.trans h.kept
  state := h'.state.trans h.state
  trace := h'.trace.trans h.trace
  streamIds := h'.streamIds.trans h.streamIds
  streams := by
    intro s' hs'
    obtain ⟨s₁, hs₁, hid₁, hwin₁⟩ := h'.streams s' hs'
    obtain ⟨s, hs, hid₂, hwin₂⟩ := h.streams s₁ hs₁
    refine ⟨s, hs, hid₁.trans hid₂, ?_⟩
    rw [hwin₁, hwin₂, hid₂]
    by_cases hfirst : s.streamId = streamId
    · simp [hfirst, hid]
    · simp [hfirst]

/-- The loop over the streams, if no window overflows. -/
theorem raises_fold (hids : ids.Nodup)
    (hn : (c.streams.map (·.streamId)).Nodup)
    (hfit : ∀ s ∈ c.streams, s.streamId ∈ ids →
      s.outWindow + delta ≤ int32Max) (h : ids.foldlM (fun c streamId => do
      let (c, _) ← updateStreamOutputWindow c streamId delta
      .ok c) c = .ok c') : Raises ids delta c c' := by
  induction ids generalizing c with
  | nil =>
    cases h
    exact .nil delta _
  | cons streamId ids ih =>
    rw [nodup_cons] at hids
    obtain ⟨c₁, h₁, h⟩ := except_bind_eq_ok.1 h
    obtain ⟨⟨c₂, updated⟩, h₂, h₁⟩ := except_bind_eq_ok.1 h₁
    cases h₁
    have hupdated : updated = true := by
      obtain ⟨s, hs, ⟨-, hgt, -⟩ | ⟨htrue, -⟩⟩ :=
        updateStreamOutputWindow_cases h₂
      · obtain ⟨hmem, hid⟩ := Conn.getStream_some hs
        have hle := hfit s hmem (by simp [hid])
        omega
      · exact htrue
    subst hupdated
    have hraise := raises_single hn h₂
    refine hraise.cons hids.1 (ih hids.2 (hraise.streamIds ▸ hn) ?_ h)
    intro s₁ hs₁ hmem
    obtain ⟨s, hs, hid, hwin⟩ := hraise.streams s₁ hs₁
    have hne : s.streamId ≠ streamId := by
      rintro rfl
      exact hids.1 (hid ▸ hmem)
    rw [hwin, if_neg (by simpa using hne), add_zero]
    exact hfit s hs (mem_cons_of_mem _ (hid ▸ hmem))

/-- Windows that lag by what they are raised by are exact then. -/
theorem bounded_raises (hb : Bounded c) (hdelta : 0 ≤ delta)
    (hlag : ∀ s ∈ c.streams, s.outWindow + (if s.streamId ∈ ids then delta
      else 0) +
        streamSent s.streamId c.trace = streamLimit s.streamId c.trace)
    (h : Raises ids delta c c') : Balanced none c' := by
  have hexact : ∀ s' ∈ c'.streams, s'.Exact c'.trace := by
    intro s' hs'
    obtain ⟨s, hs, hid, hwin⟩ := h.streams s' hs'
    unfold Stream.Exact
    rw [hid, hwin, h.trace]
    exact hlag s hs
  have hkept := h.kept
  simp only [Conn.kept, Kept.mk.injEq] at hkept
  obtain ⟨-, hsettings, -, hwindow, -⟩ := hkept
  refine ⟨{
    settings := by rw [hsettings, h.trace, hb.settings]
    ledger := h.trace ▸ hb.ledger
    outWindow := by rw [hwindow, h.trace]; exact hb.outWindow
    streams := fun s' hs' => ⟨?_, (hexact s' hs').le⟩ }, fun _ => hexact⟩
  obtain ⟨s, hs, hid, hwin⟩ := h.streams s' hs'
  have hpos := (hb.streams s hs).1
  rw [hwin]
  split
  · omega
  · omega

-- ==== WINDOW_UPDATE

theorem announces_of_type (htype : f.type ≠ .settings) :
    announces t f = false := by
  simp [announces, htype]

theorem incrementOn_of_type (htype : f.type ≠ .windowUpdate) (id : Nat) :
    (Label.recv f).incrementOn id = 0 := by
  simp [Label.incrementOn, htype]

/-- The increment is that of its stream only. -/
theorem incrementOn_of_ok (htype : f.type = .windowUpdate)
    (h : decodeWindowUpdatePayload f = .ok increment) (id : Nat) :
    (Label.recv f).incrementOn id =
      if f.streamId = id then increment else 0 := by
  simp [Label.incrementOn, htype, h]

section

variable (htype : f.type = .windowUpdate)
  (hdecode : decodeWindowUpdatePayload f = .ok increment)
  (hc : Balanced none c)
include htype hdecode hc

/-- The window of a stream, once an increment is received. -/
theorem lag_received : ∀ s ∈ (c.received f).streams,
      s.outWindow + (if s.streamId ∈ [f.streamId] then (increment : Int)
        else 0)
          + streamSent s.streamId (c.received f).trace =
        streamLimit s.streamId (c.received f).trace := by
  intro s hs
  have hs := hc.2 rfl s hs
  unfold Stream.Exact at hs
  simp only [Conn.received, Conn.log, streamSent_recv,
    streamLimit_recv (announces_of_type
      (by simp [htype] : f.type ≠ .settings)),
    incrementOn_of_ok htype hdecode, mem_singleton]
  split
  next hid =>
    push_cast
    omega
  next hid =>
    push_cast
    omega

/-- A stream that is not the frame's keeps its window. -/
theorem exact_received {s : Stream} (hs : s ∈ c.streams)
    (hne : s.streamId ≠ f.streamId) :
    s.Exact (c.received f).trace := by
  have hlag := lag_received htype hdecode hc s hs
  rwa [if_neg (by simpa using hne), add_zero] at hlag

end

theorem sendQuiet_of_quiet (h : Quiet c c') : SendQuiet c c' :=
  DataQuiet.send h.data

/-- Window and limit rise together. -/
theorem windowUpdateOfStream_inv {s : Stream} (htype : f.type = .windowUpdate)
    (hdecode : decodeWindowUpdatePayload f = .ok increment) (hids : OwnIds c)
    (hc : Balanced none c) (hs : c.getStream f.streamId = some s)
    (h : windowUpdateOfStream (c.received f) s increment ans = .ok c') :
    Balanced none c' := by
  have hb : Bounded (c.received f) :=
    bounded_received hc.1 (announces_of_type (by simp [htype]))
  obtain ⟨⟨c₁, updated⟩, h₁, h⟩ := except_bind_eq_ok.1 h
  rw [(Conn.getStream_some hs).2] at h₁ h
  dsimp only at h
  split at h
  next hupdated =>
    cases h
    subst hupdated
    have hraised := bounded_raises hb (Int.natCast_nonneg _)
      (lag_received htype hdecode hc) (raises_single hids.nodup h₁)
    exact hraised.of_same (SendQuiet.same (.requestWriteIfRoom _ c₁))
  next hupdated =>
    -- the stream that overflows is closed, the others are exact
    obtain ⟨-, -, ⟨-, -, rfl⟩ | ⟨htrue, -⟩⟩ :=
      updateStreamOutputWindow_cases h₁
    · have hsame := SendQuiet.same
        (sendQuiet_of_quiet (quietWalk.resetStream (by decide) _ h))
      refine ⟨hb.of_same hsame, fun _ s hs => ?_⟩
      have hreset : Ensures (fun c' => ∀ s ∈ c'.streams,
          s.streamId ≠ f.streamId)
          (resetStream (c.received f) f.streamId .flowControl .flowControl) :=
        .bind_any fun _ => .bind_any fun _ => closeStream_streams
      exact hsame.exact (P := (· ≠ f.streamId))
        (fun s hs => exact_received htype hdecode hc hs) s hs (hreset _ h s hs)
    · exact absurd htrue hupdated

/-- Also on the connection. -/
theorem handleWindowUpdateFrame_inv (htype : f.type = .windowUpdate)
    (hids : OwnIds c) (hc : Balanced none c)
    (h : handleWindowUpdateFrame (c.received f) f ans = .ok (c', e)) :
    Balanced e c' := by
  have hnone : announces c.trace f = false :=
    announces_of_type (by simp [htype])
  have hb : Bounded (c.received f) := bounded_received hc.1 hnone
  have hroom : ∀ c : Conn, SendSame c (requestWriteIfRoom c ans.room) :=
    fun c => SendQuiet.same (.requestWriteIfRoom _ c)
  unfold handleWindowUpdateFrame at h
  split at h
  next hdecode =>
    obtain ⟨c₁, h₁, h⟩ := except_bind_eq_ok.1 h
    cases h
    have hsame := sendSame_received hnone
      (by simp [Label.incrementOn, hdecode])
    exact hc.of_same (hsame.trans
      (SendQuiet.same (sendQuiet_of_quiet (quiet_rejectWindowUpdate _ h₁))))
  next hdecode =>
    cases h
    exact hb.failed
  next increment hdecode =>
    split at h
    next hid =>
      unfold windowUpdate at h
      split at h
      · cases h
        exact hb.failed
      next outWindow hwindow =>
        split at hwindow
        · cases hwindow
        cases hwindow
        cases h
        have hwindow := hc.1.outWindow
        refine Balanced.of_same
          (c := { c.received f with outWindow := c.outWindow + increment })
          ⟨{ hb with outWindow := ?_ }, fun _ s hs => ?_⟩ (hroom _)
        · simp only [Conn.received, Conn.log, connSent_recv, connLimit_recv,
            incrementOn_of_ok htype hdecode, hid]
          push_cast
          omega
        · exact exact_received htype hdecode hc hs (hid ▸ hids.ne_zero s hs)
    · split at h
      · split at h
        next hget =>
          cases h
          refine Balanced.of_same ⟨hb, fun _ s hs => ?_⟩ (hroom _)
          refine exact_received htype hdecode hc hs fun hid => ?_
          have hfind := find?_eq_none.1 hget s hs
          simp [hid] at hfind
        next s hget =>
          obtain ⟨c₁, h₁, h⟩ := except_bind_eq_ok.1 h
          cases h
          exact windowUpdateOfStream_inv htype hdecode hids hc hget h₁
      · cases h
        exact hb.failed

-- ==== SETTINGS

/-- The settings of the peer after the frame. -/
def Conn.settingsAfter (c : Conn) (f : Frame) : Settings :=
  (updatePeerSettings c.peerSettings f.payload).1

/-- No SETTINGS frame makes the window of an open stream smaller, or makes it
overflow. -/
def SettingsFit (c : Conn) : Event → Prop
  | .frame f _ =>
    announces c.trace f = true → ∀ s ∈ c.streams,
      c.peerSettings.initialWindowSize ≤
          (c.settingsAfter f).initialWindowSize ∧
        ((updatePeerSettings c.peerSettings f.payload).2 = none →
          s.outWindow + ((c.settingsAfter f).initialWindowSize.toNat -
            c.peerSettings.initialWindowSize.toNat) ≤ int32Max)
  | _ => True

instance (c : Conn) (e : Event) : Decidable (SettingsFit c e) :=
  e.decidableOfFrame (fun _ _ => inferInstanceAs (Decidable (_ → _)))
    fun e he => by cases e <;> trivial

theorem type_of_announces (hsettings : announces t f = true) :
    f.type = .settings := by
  simp only [announces, Bool.and_eq_true, beq_iff_eq] at hsettings
  exact hsettings.1.1.1.1

/-- A new initial size moves all limits. -/
theorem streamLimit_settings (hsettings : announces t f = true) (id : Nat) :
    (streamLimit id (.recv f :: t) : Int) = streamLimit id t +
      ((peerSettingsOf (.recv f :: t)).initialWindowSize.toNat -
        (peerSettingsOf t).initialWindowSize.toNat) := by
  have hinc : (Label.recv f).incrementOn id = 0 :=
    incrementOn_of_type (by simp [type_of_announces hsettings]) id
  simp only [streamLimit, sinceOpened_cons (l := .recv f) rfl, total_cons]
  push_cast
  omega

theorem peerSettingsOf_received (hsettings : announces c.trace f = true)
    (hb : Bounded c) :
    peerSettingsOf (.recv f :: c.trace) = c.settingsAfter f := by
  simp [peerSettingsOf, hsettings, Conn.settingsAfter, hb.settings]

/-- The connection once the settings are read. -/
theorem bounded_settings (hsettings : announces c.trace f = true)
    (hb : Bounded c)
    (hgrow : ∀ s ∈ c.streams, c.peerSettings.initialWindowSize ≤
      (c.settingsAfter f).initialWindowSize) :
    Bounded { c.received f with peerSettings := c.settingsAfter f } := by
  have hafter := peerSettingsOf_received hsettings hb
  have hinc : (Label.recv f).incrementOn 0 = 0 :=
    incrementOn_of_type (by simp [type_of_announces hsettings]) 0
  refine { hb with
    settings := hafter.symm
    ledger := ⟨trivial, hb.ledger⟩
    outWindow := ?_
    streams := fun s hs => ?_ }
  · have hwindow := hb.outWindow
    simp only [Conn.received, Conn.log, connSent_recv, connLimit_recv, hinc]
    exact hwindow
  · have hstream := hb.streams s hs
    have hle := UInt32.le_iff_toNat_le.1 (hgrow s hs)
    simp only [Conn.received, Conn.log, streamSent_recv,
      streamLimit_settings hsettings, hafter, ← hb.settings]
    omega

/-- The windows then lag by what the initial window size has grown. -/
theorem lag_settings (hsettings : announces c.trace f = true)
    (hc : Balanced none c) :
    ∀ s ∈ c.streams, s.outWindow +
      ((c.settingsAfter f).initialWindowSize.toNat -
          c.peerSettings.initialWindowSize.toNat : Int) +
        streamSent s.streamId (c.received f).trace =
      streamLimit s.streamId (c.received f).trace := by
  intro s hs
  have hown := hc.2 rfl s hs
  unfold Stream.Exact at hown
  simp only [Conn.received, Conn.log, streamSent_recv,
    streamLimit_settings hsettings, peerSettingsOf_received hsettings hc.1,
    ← hc.1.settings]
  omega

theorem SendSame.lag (h : SendSame c c')
    (hc : ∀ s ∈ c.streams, s.outWindow + delta +
      streamSent s.streamId c.trace = streamLimit s.streamId c.trace) :
    ∀ s ∈ c'.streams, s.outWindow + delta +
      streamSent s.streamId c'.trace = streamLimit s.streamId c'.trace := by
  intro s' hs'
  obtain ⟨s, hs, hid, hwin⟩ := h.stream hs'
  rw [hid, hwin, h.ledger.streamSent, h.ledger.streamLimit]
  exact hc s hs

/-- And all windows, by the same. -/
theorem applySettings_inv (hsettings : announces c.trace f = true)
    (hids : OwnIds c) (hc : Balanced none c) (hfit : ∀ s ∈ c.streams,
      c.peerSettings.initialWindowSize ≤
        (c.settingsAfter f).initialWindowSize ∧
        s.outWindow + ((c.settingsAfter f).initialWindowSize.toNat -
          c.peerSettings.initialWindowSize.toNat) ≤ int32Max)
    (h : applySettings (c.received f) (c.settingsAfter f) ans = .ok c') :
    Balanced none c' := by
  have hack : SendQuiet { c.received f with peerSettings := c.settingsAfter f }
      (requestWrite ({ c.received f with
        peerSettings := c.settingsAfter f }.emit .settingsAck)) :=
    .emitRequest rfl _
  have hb₁ := (bounded_settings hsettings hc.1 fun s hs =>
    (hfit s hs).1).of_same (SendQuiet.same hack)
  have hlag := (SendQuiet.same hack).lag (lag_settings hsettings hc)
  unfold applySettings at h
  dsimp only at h
  split at h
  · obtain ⟨c₂, h₂, h⟩ := except_bind_eq_ok.1 h
    cases h
    -- with a stream to raise, the unsigned difference is the real one
    have hdelta : ∀ s ∈ c.streams, (((c.settingsAfter f).initialWindowSize -
          c.peerSettings.initialWindowSize).toNat : Int) =
        (c.settingsAfter f).initialWindowSize.toNat -
        c.peerSettings.initialWindowSize.toNat := by
      intro s hs
      have hle := (hfit s hs).1
      rw [UInt32.toNat_sub_of_le _ _ hle,
        Int.natCast_sub (UInt32.le_iff_toNat_le.1 hle)]
    have hstreams : ∀ s, s ∈ (requestWrite ({ c.received f with
        peerSettings := c.settingsAfter f }.emit .settingsAck)).streams →
        s ∈ c.streams := by
      intro s hs
      rwa [requestWrite_streams] at hs
    have hnodup := hack.nodup hids.nodup
    have hraises := raises_fold hnodup hnodup (fun s hs _ => by
      rw [show ((c.received f).peerSettings) = c.peerSettings from rfl,
        hdelta s (hstreams s hs)]
      exact (hfit s (hstreams s hs)).2) h₂
    have hraised := bounded_raises hb₁ (Int.natCast_nonneg _) (fun s hs => by
        rw [if_pos (mem_map_of_mem hs),
          show ((c.received f).peerSettings) = c.peerSettings from rfl,
          hdelta s (hstreams s hs)]
        exact hlag s hs) hraises
    exact hraised.of_same (SendQuiet.same (.requestWriteIfRoom _ c₂))
  next hsize =>
    cases h
    refine ⟨hb₁, fun _ s hs => ?_⟩
    have hown := hlag s hs
    have hsize : c.peerSettings.initialWindowSize =
        (c.settingsAfter f).initialWindowSize := not_not.1 hsize
    rw [hsize, sub_self, add_zero] at hown
    exact hown

theorem handleSettingsFrame_inv (htype : f.type = .settings)
    (hlength : f.payload.length ≤ 16384)
    (hblock : inHeaderBlock c.trace = false) (hids : OwnIds c)
    (hc : Balanced none c) (hfit : SettingsFit c (.frame f ans))
    (h : handleSettingsFrame (c.received f) f ans = .ok (c', e)) :
    Balanced e c' := by
  have hignored : announces c.trace f = false → Balanced none (c.received f) :=
    fun hnone => hc.of_same
      (sendSame_received hnone (incrementOn_of_type (by simp [htype])))
  unfold handleSettingsFrame at h
  split at h
  next hid =>
    cases h
    exact (hignored (by simp [announces, hid])).1.failed
  next hid =>
    split at h
    next hack =>
      have hignored := hignored (by simp [announces, hack])
      split at h
      · cases h
        exact hignored.1.failed
      · cases h
        exact hignored
    next hack =>
      have hsettings : announces c.trace f = true := by
        simp [announces, htype, not_not.1 hid, hack, hlength, hblock]
      have hfit := hfit hsettings
      split at h
      next settings err hupdate =>
        cases h
        have hafter : settings = c.settingsAfter f :=
          (congrArg Prod.fst hupdate).symm
        subst hafter
        exact (bounded_settings hsettings hc.1 fun s hs =>
          (hfit s hs).1).failed
      next settings hupdate =>
        obtain ⟨c₁, h₁, h⟩ := except_bind_eq_ok.1 h
        cases h
        have hafter : settings = c.settingsAfter f :=
          (congrArg Prod.fst hupdate).symm
        have hvalid : (updatePeerSettings c.peerSettings f.payload).2 = none :=
          congrArg Prod.snd hupdate
        subst hafter
        exact applySettings_inv hsettings hids hc
          (fun s hs => ⟨(hfit s hs).1, (hfit s hs).2 hvalid⟩) h₁

-- ==== runs

/-- One case per frame type. -/
theorem sendInv_handled (hc : SendInv c) (hbase : Base c)
    (hstate : c.state ≠ .isClosing) (hfit : SettingsFit c (.frame f ans))
    (h : Handled (c.received f) f ans c' e) : Balanced e c' := by
  have hb : Balanced none c := ⟨hc.bounded, fun _ => hc.exact hstate⟩
  have hreads : c.readFrame.inBlock = inHeaderBlock c.trace :=
    hbase.reads hstate
  -- a frame that neither announces settings nor gives credit
  have hother : f.type ≠ .settings → f.type ≠ .windowUpdate →
      SendQuiet (c.received f) c' → Balanced e c' := by
    intro hsettings hupdate hquiet
    have hsame := (sendSame_received (announces_of_type hsettings)
      (incrementOn_of_type hupdate)).trans (SendQuiet.same hquiet)
    have hc' := hb.of_same hsame
    exact ⟨hc'.1, fun _ => hc'.2 rfl⟩
  cases h with
  | rejected err hsettings =>
    refine (bounded_received hb.1 ?_).failed
    by_contra hannounces
    simp only [announces, Bool.not_eq_false, Bool.and_eq_true, beq_iff_eq,
      decide_eq_true_eq, Bool.not_eq_eq_eq_not, Bool.not_true]
      at hannounces
    obtain ⟨⟨⟨⟨htype, -⟩, -⟩, hlen⟩, hblock⟩ := hannounces
    have hin : c.readFrame.inBlock = true := hsettings htype hlen
    rw [hreads, hblock] at hin
    cases hin
  | ignored hread htype =>
    exact hother (fun h => by simp [h] at htype)
      (fun h => by simp [h] at htype) (.refl _)
  | data hread htype h =>
    exact hother (by simp [htype]) (by simp [htype])
      (DataQuiet.send (dataWalk.handleDataFrame _ h))
  | headers hread htype h =>
    exact hother (by simp [htype]) (by simp [htype])
      (BlockQuiet.send (blockQuiet_handleHeadersFrame h))
  | quiet hread htype h =>
    exact hother (fun h => by simp [h] at htype)
      (fun h => by simp [h] at htype)
      (sendQuiet_of_quiet h)
  | @settings c₁ _ _ hread htype hlength h hnext =>
    have hblock := hreads.symm.trans (ReadFrame.inBlock_eq_false hread)
    obtain ⟨hb₁, hexact₁⟩ :=
      handleSettingsFrame_inv htype hlength hblock hbase.ids hb hfit h
    exact ⟨{ hb₁ with }, hexact₁⟩
  | windowUpdate hread htype h =>
    exact handleWindowUpdateFrame_inv htype hbase.ids hb h
  | continuation hread htype h =>
    exact hother (by simp [htype]) (by simp [htype])
      (BlockQuiet.send (blockQuiet_expectContinuationOfHeaders h))

/-- What one event keeps. -/
theorem sendInv_turn {e : Event} (hc : SendInv c) (hbase : Base c)
    (hfit : SettingsFit c e) (h : Turn c e c') : SendInv c' := by
  cases h with
  | writes h => exact hc.of_writes h
  | opens h => exact hc.opened.of_same (SendQuiet.same (sendQuiet_of_quiet h))
  | frame hstate h hc' =>
    obtain ⟨hb, hexact⟩ := sendInv_handled hc hbase hstate hfit h
    rcases hc' with ⟨he, rfl⟩ | ⟨hquiet, hclosing⟩
    · exact ⟨hb, fun _ => hexact he⟩
    · exact ⟨hb.of_same (SendQuiet.same (sendQuiet_of_quiet hquiet)),
        fun hopen => absurd hclosing hopen⟩
  | updates hs hconsumed h =>
    exact hc.of_same (SendQuiet.same (DataQuiet.send (dataQuiet_updates h)))

end

theorem sendInv_createConnection (ctx : Context) :
    SendInv (createConnection ctx) where
  bounded := {
    settings := rfl
    ledger := ⟨trivial, trivial⟩
    outWindow := ⟨Int.natCast_nonneg _, le_of_eq rfl⟩
    streams := by
      intro s hs
      cases hs }
  exact := by
    intro _ s hs
    cases hs

/-- As long as the SETTINGS frames fit, the client sends no more than the peer
allows, and its windows say how much that is. -/
theorem send_window_of_settingsFit (ctx : Context) (es : List Event)
    (hfit : Meets step SettingsFit (createConnection ctx) es) (c : Conn)
    (hrun : es.foldlM step (createConnection ctx) = .ok c) :
    LedgerOk c.trace ∧ (c.state ≠ .isClosing → ∀ s ∈ c.streams,
      s.outWindow + streamSent s.streamId c.trace =
        streamLimit s.streamId c.trace) := by
  have hinv : SendInv c := run_base (fun c e c' hc hbase hfit hstep =>
    sendInv_turn hc hbase hfit (turn_of_step hstep))
    (sendInv_createConnection ctx) hfit hrun
  exact ⟨hinv.bounded.ledger, hinv.exact⟩

/-- The initial window size is raised, and a stream is given credit, before its
request body is sent. -/
def raisingEvents : List Event :=
  [.frame ⟨.settings, 0, 0, []⟩ acceptAll,
    .open (plainRequest (ascii "POST") (some (ascii "abc"))),
    .frame ⟨.settings, 0, 0, [0, 4, 0, 1, 0, 0]⟩ acceptAll,
    .frame ⟨.windowUpdate, 0, 1, [0, 0, 0, 5]⟩ acceptAll,
    .deferTimeout fun _ => 65536]

theorem send_window_of_raisingEvents :
    ∃ c, raisingEvents.foldlM step (createConnection ⟨65536, 100⟩) = .ok c ∧
      c.streams.map (·.outWindow) = [65538] ∧ LedgerOk c.trace ∧
      (c.state ≠ .isClosing → ∀ s ∈ c.streams,
        s.outWindow + streamSent s.streamId c.trace =
          streamLimit s.streamId c.trace) := by
  have hreaches : reaches step
      (fun c => c.streams.map (·.outWindow) == [65538])
      (createConnection ⟨65536, 100⟩) raisingEvents = true := by
    decide +kernel
  obtain ⟨c, hrun, htest⟩ := exists_of_reaches hreaches
  exact ⟨c, hrun, by simpa using htest, send_window_of_settingsFit _ _
    (meets_iff.mp (by decide +kernel)) c hrun⟩

/-- The initial window size is lowered to zero. The request body is sent all
the same. -/
theorem sent_beyond_lowered_window :
    reaches step (fun c => c.state == .open && !decide (LedgerOk c.trace) &&
        streamSent 1 c.trace == 3 && streamLimit 1 c.trace == 0 &&
        c.streams.map (·.outWindow) == [65532])
      (createConnection ⟨65536, 100⟩)
      [.frame ⟨.settings, 0, 0, []⟩ acceptAll,
        .open (plainRequest (ascii "POST") (some (ascii "abc"))),
        .frame ⟨.settings, 0, 0, [0, 4, 0, 0, 0, 0]⟩ acceptAll,
        .deferTimeout fun _ => 65536] = true := by
  decide +kernel

end H2o.Http2Client
