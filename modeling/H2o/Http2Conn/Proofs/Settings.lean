/-
The windows of the streams when the peer changes their initial size.

`handle_settings_frame` adds the difference to the window of every stream, and
does not look whether `update_stream_output_window` has done so. All windows
change by the difference exactly where none of them would go beyond 2³¹ - 1
(`settings_adjust_windows_iff`); a frame that has changed the size before it
turns out to be invalid leaves them as they are.
-/
import H2o.Http2Conn.Receive
import H2o.Lib.Run

namespace H2o.Http2Conn

open Http2 Lib

variable {c : Conn} {delta : Int}

/-- The settings of the peer after a frame, and the error of the frame. -/
def Conn.settingsAfter (c : Conn) (f : Frame) : Settings × Option ConnError :=
  if f.streamId ≠ 0 ∨ f.ack then (c.peerSettings, none)
  else updatePeerSettings c.peerSettings f.payload

/-- How much the initial size of the windows changes. -/
def Conn.windowDelta (c : Conn) (f : Frame) : Int :=
  (c.settingsAfter f).1.initialWindowSize.toNat -
    c.peerSettings.initialWindowSize.toNat

/-- The window can be changed: it does not overflow, and a stream that it lets
send again does not wait for something else. -/
def Conn.CanAdjust (c : Conn) (delta : Int) (s : Stream) : Prop :=
  s.outputWindow + delta ≤ int32Max ∧
    (s.outputWindow ≤ 0 → 0 < s.outputWindow + delta →
      s.data = true ∨ s.state = .sendBodyIsFinal → c.isLinked s.id = false)

instance (c : Conn) (delta : Int) (s : Stream) :
    Decidable (c.CanAdjust delta s) := by
  unfold Conn.CanAdjust
  infer_instance

/-- A stream with its window changed. -/
def Stream.adjusted (delta : Int) (s : Stream) : Stream :=
  { s with outputWindow := s.outputWindow + delta }

theorem Stream.adjusted_eq_self {s : Stream} :
    s.adjusted delta = s ↔ delta = 0 := by
  rw [adjusted, Stream.mk.injEq]
  simp

theorem map_adjusted_eq_self {ss : List Stream} :
    ss.map (Stream.adjusted delta) = ss ↔ delta = 0 ∨ ss = [] := by
  cases ss with
  | nil => simp
  | cons s ss =>
    constructor
    · intro h
      exact .inl (Stream.adjusted_eq_self.1 (List.cons.inj h).1)
    · rintro (rfl | h)
      · rw [show Stream.adjusted 0 = id from funext fun s =>
          Stream.adjusted_eq_self.2 rfl, List.map_id]
      · cases h

/-- A window is changed exactly if it can be. -/
theorem updateStreamOutputWindow_eq_iff {s : Stream} :
    c.updateStreamOutputWindow s delta = .ok (some (s.adjusted delta)) ↔
      c.CanAdjust delta s := by
  unfold Conn.updateStreamOutputWindow windowUpdate Conn.CanAdjust
  split
  next hover =>
    split at hover
    next hgt => exact iff_of_false nofun fun h => by omega
    next => cases hover
  next hover =>
    split at hover
    next => cases hover
    next hle =>
      cases hover
      split
      next hstuck => exact iff_of_false nofun fun h => by simp_all
      next hfree =>
        refine iff_of_true rfl ⟨by omega, fun hclosed hopen hsends => ?_⟩
        by_contra hlinked
        exact hfree ⟨hclosed, hopen, hsends, by simpa using hlinked⟩

/-- The loop changes every window exactly if each one can be changed. -/
theorem adjustOutputWindows_eq_iff (hdelta : delta ≠ 0) {ss : List Stream} :
    c.adjustOutputWindows delta ss = .ok (ss.map (Stream.adjusted delta)) ↔
      ∀ s ∈ ss, c.CanAdjust delta s := by
  induction ss with
  | nil => exact iff_of_true rfl (List.forall_mem_nil _)
  | cons s ss ih =>
    constructor
    · intro h
      rw [Conn.adjustOutputWindows] at h
      obtain ⟨s', hone, h⟩ := except_bind_eq_ok.1 h
      obtain ⟨ss', hrest, h⟩ := except_bind_eq_ok.1 h
      obtain ⟨hs, rfl⟩ := List.cons.inj (Except.ok.inj h)
      refine List.forall_mem_cons.2 ⟨?_, ih.1 hrest⟩
      cases s' with
      | none => exact absurd (Stream.adjusted_eq_self.1 hs.symm) hdelta
      | some s' => exact updateStreamOutputWindow_eq_iff.1 (hs ▸ hone)
    · intro h
      obtain ⟨hs, hss⟩ := List.forall_mem_cons.1 h
      rw [Conn.adjustOutputWindows, updateStreamOutputWindow_eq_iff.2 hs,
        ih.2 hss]
      rfl

/-- What a SETTINGS frame is to do: every window changes by the difference of
the initial sizes and stays below 2³¹, or the connection fails because one
would not. -/
def Conn.Adjusts (c : Conn) (f : Frame) : Prop :=
  ∃ c' e, c.handleSettingsFrame f = .ok (c', e) ∧
    ((c'.streams = c.streams.map (Stream.adjusted
        ((c'.peerSettings.initialWindowSize.toNat : Int) -
          c.peerSettings.initialWindowSize.toNat)) ∧
      ∀ s ∈ c'.streams, s.outputWindow ≤ int32Max) ∨
    e = value .flowControl ∧ ∃ s ∈ c.streams, (int32Max : Int) <
      s.outputWindow + ((c'.peerSettings.initialWindowSize.toNat : Int) -
        c.peerSettings.initialWindowSize.toNat))

/-- If the initial size changes, each window can be changed with it; if the
frame is invalid behind that, there is none or the error is that of a window
that could not. -/
def Conn.SettingsFit (c : Conn) (f : Frame) : Prop :=
  c.windowDelta f ≠ 0 →
    match (c.settingsAfter f).2 with
    | none => ∀ s ∈ c.streams, c.CanAdjust (c.windowDelta f) s
    | some e => c.streams = [] ∨ value e.code = value .flowControl ∧
        ∃ s ∈ c.streams, (int32Max : Int) < s.outputWindow + c.windowDelta f

/-- A frame that does not change the initial size, or is invalid, leaves the
streams as they are. -/
theorem handleSettingsFrame_unchanged {f : Frame}
    (h : c.windowDelta f = 0 ∨ (c.settingsAfter f).2 ≠ none) :
    ∃ c' e, c.handleSettingsFrame f = .ok (c', e) ∧ c'.streams = c.streams ∧
      c'.peerSettings = (c.settingsAfter f).1 ∧
      ∀ err ∈ (c.settingsAfter f).2, e = value err.code := by
  by_cases hread : f.streamId ≠ 0 ∨ f.ack = true
  · have hafter : c.settingsAfter f = (c.peerSettings, none) := if_pos hread
    rw [Conn.handleSettingsFrame, hafter]
    split_ifs with hid hack hpayload
    · exact ⟨_, _, rfl, rfl, rfl, nofun⟩
    · exact ⟨_, _, rfl, rfl, rfl, nofun⟩
    · exact ⟨_, _, rfl, rfl, rfl, nofun⟩
    · exact absurd hread (not_or.2 ⟨hid, hack⟩)
  have hafter : c.settingsAfter f =
      updatePeerSettings c.peerSettings f.payload := if_neg hread
  obtain ⟨hid, hack⟩ := not_or.1 hread
  rw [Conn.windowDelta, hafter] at h
  rw [Conn.handleSettingsFrame, hafter, if_neg hid, if_neg hack]
  simp only
  split
  next e he => exact ⟨_, _, rfl, rfl, rfl, by simp [he]⟩
  next hnone =>
    have hsame : ¬c.peerSettings.initialWindowSize ≠
        (updatePeerSettings c.peerSettings f.payload).1.initialWindowSize := by
      have hdelta := h.resolve_right (not_not.2 hnone)
      rw [not_not, ← UInt32.toNat_inj]
      omega
    rw [if_neg hsame]
    exact ⟨_, _, rfl, rfl, rfl, by simp [hnone]⟩

/-- A valid frame that changes the initial size runs the loop, and is no
error. -/
theorem handleSettingsFrame_changed {f : Frame} {c' : Conn} {e : Int}
    (h : c.windowDelta f ≠ 0) (hvalid : (c.settingsAfter f).2 = none) :
    c.handleSettingsFrame f = .ok (c', e) ↔ ∃ ss,
      { c with peerSettings := (c.settingsAfter f).1 }.adjustOutputWindows
          (c.windowDelta f) c.streams = .ok ss ∧
        c' = { c with peerSettings := (c.settingsAfter f).1, streams := ss } ∧
        e = 0 := by
  unfold Conn.windowDelta Conn.settingsAfter at *
  have hread : ¬(f.streamId ≠ 0 ∨ f.ack = true) := by
    intro hor
    simp [hor] at h
  rw [if_neg hread] at h hvalid ⊢
  obtain ⟨hid, hack⟩ := not_or.1 hread
  have hne : c.peerSettings.initialWindowSize ≠
      (updatePeerSettings c.peerSettings f.payload).1.initialWindowSize := by
    intro heq
    simp [heq] at h
  rw [Conn.handleSettingsFrame, if_neg hid, if_neg hack]
  simp only [hvalid]
  rw [if_pos hne, done]
  generalize Conn.adjustOutputWindows _ _ _ = r
  cases r with
  | error err => exact iff_of_false nofun (by simp)
  | ok ss =>
    simp only [Except.ok.injEq, exists_eq_left']
    exact ⟨fun h => by cases h; exact ⟨rfl, rfl⟩, by rintro ⟨rfl, rfl⟩; rfl⟩

/-- A SETTINGS frame does what it is to do exactly if the windows fit. -/
theorem settings_adjust_windows_iff (c : Conn) (f : Frame)
    (hwindows : ∀ s ∈ c.streams, s.outputWindow ≤ int32Max) :
    c.Adjusts f ↔ c.SettingsFit f := by
  by_cases hunchanged : c.windowDelta f = 0 ∨ (c.settingsAfter f).2 ≠ none
  · obtain ⟨c', e, hframe, hstreams, hpeer, herr⟩ :=
      handleSettingsFrame_unchanged hunchanged
    have hprop : c.Adjusts f ↔ (c.windowDelta f = 0 ∨ c.streams = []) ∨
        e = value .flowControl ∧ ∃ s ∈ c.streams,
          (int32Max : Int) < s.outputWindow + c.windowDelta f := by
      rw [← map_adjusted_eq_self]
      constructor
      · rintro ⟨c₁, e₁, hframe₁, h⟩
        cases hframe.symm.trans hframe₁
        rw [hpeer, hstreams] at h
        exact h.imp_left fun h => h.1.symm
      · intro h
        refine ⟨c', e, hframe, ?_⟩
        rw [hpeer, hstreams]
        exact h.imp_left fun h => ⟨h.symm, hwindows⟩
    rw [hprop, Conn.SettingsFit]
    by_cases hdelta : c.windowDelta f = 0
    · exact iff_of_true (.inl (.inl hdelta)) fun h => absurd hdelta h
    obtain ⟨err, hsome⟩ :=
      Option.ne_none_iff_exists'.1 (hunchanged.resolve_left hdelta)
    simp only [hsome, hdelta, ne_eq, not_false_eq_true, false_or, forall_const,
      herr err hsome]
  · push Not at hunchanged
    obtain ⟨hdelta, hvalid⟩ := hunchanged
    have hfit : c.SettingsFit f ↔
        { c with peerSettings := (c.settingsAfter f).1
        }.adjustOutputWindows (c.windowDelta f) c.streams =
          .ok (c.streams.map (Stream.adjusted (c.windowDelta f))) := by
      rw [adjustOutputWindows_eq_iff hdelta]
      simp only [Conn.SettingsFit, hvalid, hdelta, ne_eq, not_false_eq_true,
        forall_const]
      rfl
    simp only [hfit, Conn.Adjusts, handleSettingsFrame_changed hdelta hvalid]
    constructor
    · rintro ⟨_, _, ⟨ss, hloop, rfl, rfl⟩, ⟨hss, -⟩ | ⟨he, -⟩⟩
      · exact hloop.trans (congrArg _ hss)
      · cases he
    · intro hloop
      refine ⟨_, _, ⟨_, hloop, rfl, rfl⟩, .inl ⟨rfl, ?_⟩⟩
      rw [adjustOutputWindows_eq_iff hdelta] at hloop
      exact List.forall_mem_map.2 fun s hs => (hloop s hs).1

/-- A connection with one stream, whose window has been raised. -/
def oneStream (window : Int) : Conn :=
  let c := (Conn.create ⟨100, 16, 100, 10, 1073741824⟩).streamOpen 1
  { c with streams := c.streams.map fun s => { s with
    outputWindow := window } }

/-- An initial window size of 65536, one more than the default. -/
def largerWindow : Frame := ⟨.settings, 0, 0, [0, 4, 0, 1, 0, 0]⟩

/-- The window is raised by one. -/
theorem settings_adjust_windows_oneStream :
    ∃ c' e, (oneStream 65535).handleSettingsFrame largerWindow = .ok (c', e) ∧
      c'.streams.map (·.outputWindow) = [65536] := by
  have hfit : ∀ s ∈ (oneStream 65535).streams, (oneStream 65535).CanAdjust
      ((oneStream 65535).windowDelta largerWindow) s := by
    decide
  obtain ⟨c', e, hrun, ⟨hstreams, -⟩ | ⟨he, -⟩⟩ := (settings_adjust_windows_iff
    (oneStream 65535) largerWindow (by decide)).2 fun _ => hfit
  · have hpeer : c'.peerSettings.initialWindowSize = 65536 := by
      cases hrun
      rfl
    refine ⟨c', e, hrun, ?_⟩
    rw [hstreams, hpeer]
    rfl
  · cases hrun
    cases he

/-- A window of 2³¹ - 1 cannot be raised: it stays as it is, and the frame is
not an error. -/
theorem settings_window_left :
    ∃ c', (oneStream 2147483647).handleSettingsFrame largerWindow =
      .ok (c', 0) ∧
      c'.peerSettings.initialWindowSize = 65536 ∧
      c'.streams.map (·.outputWindow) = [2147483647] :=
  ⟨_, rfl, rfl, rfl⟩

end H2o.Http2Conn
