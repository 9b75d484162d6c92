/-
WINDOW_UPDATE frames of the HTTP/2 server.

What is left of a stream's window, what has been taken but not been notified,
what waits in the buffer and what is still to be granted never make up more
than the active window size (`Stream.Ok`). So no increment is too large, and
the increments of a stream stay within what has arrived and that size.

An increment may be zero: `update_stream_input_window` sends what has not been
notified when that is no less than the window, and both may be zero. This
happens when `proceed_req` is called for no bytes, or a stream is granted
nothing in addition, while its window is used up (`EmptyUpdate`). Of all other
events every increment is positive (`increments_inRange`). A tunnel whose
client fills the window before the server has connected is the counterexample.
-/
import H2o.Http2Server.Input
import H2o.Lib.Run

namespace H2o.Http2Server

open Lib List

variable {base : Int} {id length : Nat} {r : Option Stream × List Nat}
  {frame : DataFrame}
  {increments : List Nat} {x : Except Fault (Option Stream × List Nat)}
  {contentLength : Option Nat}

-- ==== windows

theorem toSizeT_of_nonneg {v : Int} (h₀ : 0 ≤ v) (h : v < 2 ^ 64) :
    (toSizeT v : Int) = v := by
  unfold toSizeT
  rw [Int.emod_eq_of_lt h₀ h]
  exact Int.toNat_of_nonneg h₀

/-- What `update_stream_input_window` sends goes from what is not notified to
the window. -/
theorem updateStreamInputWindow_spec {s : Stream} {delta : Nat}
    (havail : 0 ≤ s.avail)
    (htotal : s.avail + s.bytesUnnotified + delta ≤ connectionWindowSize) :
    ∃ increments : List Nat, updateStreamInputWindow s delta = .ok ({ s with
        avail := s.avail + increments.sum
        bytesUnnotified := s.bytesUnnotified + delta - increments.sum },
        increments) ∧
      increments.sum ≤ s.bytesUnnotified + delta ∧
      (∀ i ∈ increments, i ≤ int32Max) ∧
      (0 < s.avail + s.bytesUnnotified + delta → ∀ i ∈ increments, 1 ≤ i) := by
  unfold connectionWindowSize at htotal
  have hmod : (s.bytesUnnotified + delta) % 2 ^ 64 =
      s.bytesUnnotified + delta := Nat.mod_eq_of_lt (by omega)
  have hsize := toSizeT_of_nonneg havail (by omega)
  unfold updateStreamInputWindow
  simp only [hmod]
  by_cases hsend : s.bytesUnnotified + delta ≥ toSizeT s.avail
  · refine ⟨[s.bytesUnnotified + delta], ?_, by simp, ?_, ?_⟩
    · have hle : ¬ s.bytesUnnotified + delta > int32Max := by
        unfold int32Max
        omega
      have hupd : windowUpdate s.avail
          ((s.bytesUnnotified + delta : Nat) : Int)
          = s.avail + ((s.bytesUnnotified + delta : Nat) : Int) := by
        unfold windowUpdate int32Max
        rw [if_neg (by push_cast; omega)]
      rw [if_pos hsend, sendWindowUpdate, if_neg hle]
      simp only [hupd, sum_singleton, Nat.sub_self]
    · intro i hi
      rw [mem_singleton.1 hi]
      unfold int32Max
      omega
    · intro hpos i hi
      rw [mem_singleton.1 hi]
      omega
  · refine ⟨[], ?_, by simp, by simp, by simp⟩
    rw [if_neg hsend]
    simp

-- ==== streams

/-- What a stream is still to be granted. -/
def Stream.credit (cfg : Config) (s : Stream) : Nat :=
  if s.state = .openBeforeFirstFrame ∨ (s.pending ∧ s.proceedReq) then
    cfg.grant
  else 0

structure Stream.Ok (cfg : Config) (s : Stream) : Prop where
  avail : 0 ≤ s.avail
  total : s.avail + s.bytesUnnotified + s.buf + s.credit cfg ≤
    cfg.activeStreamWindowSize
  entity : s.entity.getD 0 ≤ s.buf
  first : s.state = .openBeforeFirstFrame →
    s.avail + s.bytesUnnotified = streamInitialWindowSize ∧ s.pending = false

variable {cfg : Config} {s s' : Stream}

theorem credit_of_not_pending (hstate : s.state ≠ .openBeforeFirstFrame)
    (hpending : s.pending = false ∨ s.proceedReq = false) :
    s.credit cfg = 0 := by
  unfold Stream.credit
  rw [if_neg]
  rintro (h | ⟨h, h'⟩)
  · exact hstate h
  · rcases hpending with hp | hp
    · rw [hp] at h
      cases h
    · rw [hp] at h'
      cases h'

/-- Later states are owed less. -/
theorem credit_le {s t : Stream}
    (hstate : t.state = .openBeforeFirstFrame →
      s.state = .openBeforeFirstFrame)
    (hpending : t.pending = true → s.pending = true)
    (hproceed : t.proceedReq = true → s.proceedReq = true) :
    t.credit cfg ≤ s.credit cfg := by
  unfold Stream.credit
  split
  next h => rw [if_pos (h.imp hstate (And.imp hpending hproceed))]
  · exact Nat.zero_le _

/-- What a handler leaves of a stream whose window was `base` before its
increments: increments in range, and a stream within its limit. -/
structure Keeps (cfg : Config) (base : Int) (r : Option Stream × List Nat) :
    Prop where
  ok : ∀ s', r.1 = some s' → s'.Ok cfg ∧ base + r.2.sum ≤ s'.avail
  le : base + r.2.sum ≤ cfg.activeStreamWindowSize
  inRange : ∀ i ∈ r.2, 1 ≤ i ∧ i ≤ int32Max

/-- A handler that stops for another reason than an increment is as good. -/
def Good (cfg : Config) (base : Int) :
    Except Fault (Option Stream × List Nat) → Prop
  | .ok r => Keeps cfg base r
  | .error fault => fault ≠ .windowDelta

theorem Stream.Ok.avail_le (h : s.Ok cfg) :
    s.avail ≤ cfg.activeStreamWindowSize := by
  have htotal := h.total
  omega

/-- A handler that sends nothing. -/
theorem keeps_some (h : s'.Ok cfg) (hbase : base ≤ s'.avail) :
    Keeps cfg base (some s', []) := by
  refine ⟨fun s hs => ?_, ?_, by simp⟩
  · cases hs
    simpa using ⟨h, hbase⟩
  · simpa using hbase.trans h.avail_le

theorem keeps_none (h : s.Ok cfg) : Keeps cfg s.avail (Option.none, []) :=
  ⟨by simp, by simpa using h.avail_le, by simp⟩

theorem streamReset_keeps (env : Env) (h : s.Ok cfg) :
    Keeps cfg s.avail (streamReset env s, []) := by
  unfold streamReset
  split
  · exact keeps_none h
  · exact keeps_some h le_rfl

/-- `write_req` grants nothing. -/
theorem callWriteReq_keeps (env : Env) (h : s.Ok cfg) :
    Keeps cfg s.avail (callWriteReq env s, []) := by
  have hs : Stream.Ok cfg { s with entity := some s.buf } :=
    { h with entity := le_rfl }
  unfold callWriteReq
  split
  · exact streamReset_keeps env hs
  · exact keeps_some hs le_rfl

/-- A stream whose body is closed. -/
theorem Stream.Ok.closed (h : s.Ok cfg) :
    Stream.Ok cfg { s with
      proceedReq := false, state := .closeDelivered } := by
  have htotal := h.total
  refine { h with total := ?_, first := by simp }
  rw [credit_of_not_pending (by simp) (.inr rfl)]
  simp only
  omega

/-- Nor does what leads to it. -/
theorem writeStreamingBody_good (env : Env) (h : s.Ok cfg) :
    Good cfg s.avail ((writeStreamingBody env s).map fun r => (r, [])) := by
  unfold writeStreamingBody
  split
  · exact Fault.noConfusion
  split
  · split
    · exact Fault.noConfusion
    · exact callWriteReq_keeps env h
  · split
    · exact Fault.noConfusion
    · exact callWriteReq_keeps env h
  · exact callWriteReq_keeps env h.closed
  · exact Fault.noConfusion

/-- An update of the window by bytes that have room in it. -/
theorem update_keeps {delta : Nat} (havail : 0 ≤ s.avail)
    (hentity : s.entity.getD 0 ≤ s.buf)
    (hstate : s.state ≠ .openBeforeFirstFrame)
    (htotal : s.avail + s.bytesUnnotified + delta + s.buf + s.credit cfg ≤
      cfg.activeStreamWindowSize)
    (hpos : 0 < s.avail + s.bytesUnnotified + delta) :
    Good cfg s.avail ((updateStreamInputWindow s delta).map fun r =>
      (some r.1, r.2)) := by
  have hmax := cfg.window_max
  obtain ⟨increments, heq, hsum, hle, hone⟩ :=
    @updateStreamInputWindow_spec s delta havail (by omega)
  rw [heq]
  refine ⟨fun s' hs' => ?_, ?_, fun i hi => ⟨hone hpos i hi, hle i hi⟩⟩
  · cases hs'
    refine ⟨⟨?_, ?_, hentity, fun hfirst => absurd hfirst hstate⟩, le_rfl⟩
    · simp only
      omega
    · unfold Stream.credit at htotal ⊢
      simp only
      omega
  · simp only
    omega

/-- The body of a request with a chunk of it. -/
def withChunk (s : Stream) (payload : Nat) (isEndStream : Bool) : Stream :=
  let s := if isEndStream then endBody s else s
  { s with buf := s.buf + payload }

/-- A chunk goes to the buffer, and the state may move on. -/
theorem withChunk_cases (s : Stream) (payload : Nat) (isEndStream : Bool) :
    ∃ state proceedReq, withChunk s payload isEndStream =
        { s with
          buf := s.buf + payload, state := state, proceedReq := proceedReq } ∧
      (state = .openBeforeFirstFrame → s.state = .openBeforeFirstFrame) ∧
      (proceedReq = true → s.proceedReq = true) := by
  unfold withChunk endBody
  split
  · split
    · exact ⟨.closeQueued, s.proceedReq, rfl, by simp, id⟩
    · exact ⟨.closeDelivered, false, rfl, by simp, by simp⟩
  · exact ⟨s.state, s.proceedReq, rfl, id, id⟩

/-- A chunk for a request that is not streamed. The first one may grant the
stream the rest of its window. -/
theorem handleBufferedChunk_good (env : Env) {isFirst isEndStream : Bool}
    (reqQueued : Bool) (h : s.Ok cfg)
    (hstate : s.state ≠ .openBeforeFirstFrame)
    (hgrant : isFirst = true → s.pending = false ∧
      s.avail + s.bytesUnnotified + s.buf + cfg.grant ≤
        cfg.activeStreamWindowSize ∧ 0 < s.avail + s.bytesUnnotified)
    (hqueued : reqQueued = false → s.proceedReq = false) :
    Good cfg s.avail (handleBufferedChunk cfg env s isFirst isEndStream
      reqQueued) := by
  have hs : Stream.Ok cfg { s with entity := some s.buf } :=
    { h with entity := le_rfl }
  unfold handleBufferedChunk
  by_cases hfirst : (isFirst && !isEndStream) = true
  · rw [if_pos hfirst]
    obtain ⟨hpending, htotal, hpos⟩ := hgrant (Bool.and_eq_true_iff.1 hfirst).1
    split
    · refine keeps_some ⟨h.avail, ?_, le_rfl, fun hf =>
        absurd hf hstate⟩ le_rfl
      simp only [Stream.credit, true_and, or_true, if_true]
      exact htotal
    · refine @update_keeps cfg { s with entity := some s.buf }
        cfg.grant h.avail
        (le_refl s.buf) hstate ?_ (by simp only; omega)
      rw [credit_of_not_pending (s := { s with entity := some s.buf }) hstate
        (.inl hpending)]
      simp only
      omega
  · rw [if_neg hfirst]
    split
    · rename_i hend
      have hreq : s.proceedReq = false :=
        hqueued (by simpa using (Bool.and_eq_true_iff.1 hend).2)
      have htotal := h.total
      refine keeps_some { hs with
        total := ?_, first := fun hf => absurd hf hstate } le_rfl
      rw [credit_of_not_pending
        (s := { s with entity := some s.buf, pending := true }) hstate
        (.inr hreq)]
      simp only
      omega
    · exact keeps_some hs le_rfl

section

variable (env : Env) {payload : Nat} (isEndStream : Bool)
  (havail : 0 ≤ s.avail) (hentity : s.entity.getD 0 ≤ s.buf)
  (htotal : s.avail + s.bytesUnnotified + (s.buf + payload) + s.credit cfg ≤
      cfg.activeStreamWindowSize)
include havail hentity htotal

/-- A chunk of an open body; `isFirst` if it is the first one. -/
theorem chunk_good {isFirst : Bool} (hstate : s.state ≠ .openBeforeFirstFrame)
    (hfirst : isFirst = true → s.pending = false ∧
      s.avail + s.bytesUnnotified + (s.buf + payload) + cfg.grant ≤
        cfg.activeStreamWindowSize ∧ 0 < s.avail + s.bytesUnnotified) :
    Good cfg s.avail (if (withChunk s payload isEndStream).streamed then
        (handleStreamedChunk env (withChunk s payload isEndStream)).map
          fun r => (r, [])
      else handleBufferedChunk cfg env (withChunk s payload isEndStream)
        isFirst isEndStream
        s.proceedReq) := by
  obtain ⟨state, proceedReq, heq, hbefore, hproceed⟩ :=
    withChunk_cases s payload isEndStream
  rw [heq]
  have hcredit : Stream.credit cfg
      { s with
        buf := s.buf + payload, state := state, proceedReq := proceedReq } ≤
      s.credit cfg := credit_le hbefore id hproceed
  have hchunk : Stream.Ok cfg { s with
      buf := s.buf + payload, state := state, proceedReq := proceedReq } := by
    refine ⟨havail, ?_, hentity.trans (Nat.le_add_right _ _), fun h =>
      absurd (hbefore h) hstate⟩
    push_cast
    omega
  split
  · unfold handleStreamedChunk
    split
    · split
      · exact writeStreamingBody_good env hchunk
      · exact keeps_some hchunk le_rfl
    · exact keeps_some { hchunk with entity := le_rfl } le_rfl
  · have hgood := @handleBufferedChunk_good cfg _ env isFirst isEndStream
      s.proceedReq hchunk
      (fun h => hstate (hbefore h)) (fun h =>
        ⟨(hfirst h).1, by simp only; push_cast; exact
        (hfirst h).2.1, (hfirst h).2.2⟩)
      fun hqueued => Bool.eq_false_iff.2 fun hp =>
        Bool.eq_false_iff.1 hqueued (hproceed hp)
    exact hgood

/-- A chunk, once its bytes have been taken from the window. -/
theorem handleRequestBodyChunk_good (hfirst : s.state = .openBeforeFirstFrame →
      0 < s.avail + s.bytesUnnotified ∧ s.pending = false) :
    Good cfg s.avail (handleRequestBodyChunk cfg env s payload
      isEndStream) := by
  unfold handleRequestBodyChunk
  split
  · exact Fault.noConfusion
  simp only
  have hcredit : Stream.credit cfg
      { s with state := .open, received := s.received + payload } ≤
      s.credit cfg := credit_le nofun id id
  split
  · exact streamReset_keeps env (s := { s with state := .open, received := _ })
      ⟨havail, by simp only; omega, hentity, by simp⟩
  · refine chunk_good env isEndStream
      (s := { s with state := .open, received := _ })
      havail hentity (by simp only; omega) (by simp) fun hdec => ?_
    have hbefore := of_decide_eq_true hdec
    have hgrant : s.credit cfg = cfg.grant := if_pos (.inl hbefore)
    obtain ⟨hpos, hpending⟩ := hfirst hbefore
    exact ⟨hpending, by simp only; omega, hpos⟩

end

/-- Less is left of the window than the handler needs. -/
theorem Keeps.mono {base' : Int} (h : Keeps cfg base r) (hle : base' ≤ base) :
    Keeps cfg base' r := by
  refine ⟨fun s' hs' => ?_, ?_, h.inRange⟩
  · obtain ⟨hok, hbase⟩ := h.ok s' hs'
    exact ⟨hok, by omega⟩
  · have hbase := h.le
    omega

/-- A handler that runs after increments have been sent. -/
theorem Keeps.after (h : Keeps cfg s.avail r)
    (hle : base + increments.sum ≤ s.avail)
    (hrange : ∀ i ∈ increments, 1 ≤ i ∧ i ≤ int32Max) :
    Keeps cfg base (r.1, increments ++ r.2) := by
  have hbound := h.le
  refine ⟨fun s' hs' => ?_, ?_, fun i hi => ?_⟩
  · obtain ⟨hok, hbase⟩ := h.ok s' hs'
    refine ⟨hok, ?_⟩
    simp only [sum_append]
    omega
  · simp only [sum_append]
    omega
  · rcases mem_append.1 hi with hi | hi
    · exact hrange i hi
    · exact h.inRange i hi

theorem Good.after (h : Good cfg s.avail x)
    (hle : base + increments.sum ≤ s.avail)
    (hrange : ∀ i ∈ increments, 1 ≤ i ∧ i ≤ int32Max) :
    Good cfg base (x.map fun r => (r.1, increments ++ r.2)) := by
  cases x with
  | error fault => exact h
  | ok r => exact Keeps.after h hle hrange

/-- The padding of a DATA frame goes back to the window. -/
theorem padding_spec (h : s.Ok cfg) (hle : (frame.length : Int) ≤ s.avail)
    (hpayload : frame.payload ≤ frame.length) :
    ∃ increments : List Nat, (if frame.length ≠ frame.payload then
        updateStreamInputWindow { s with avail := s.avail - frame.length }
          (frame.length - frame.payload)
      else .ok ({ s with avail := s.avail - frame.length }, [])) =
        .ok ({ s with
          avail := s.avail - frame.length + increments.sum
          bytesUnnotified :=
            s.bytesUnnotified + (frame.length - frame.payload) -
              increments.sum }, increments) ∧
      increments.sum ≤ s.bytesUnnotified + (frame.length - frame.payload) ∧
      ∀ i ∈ increments, 1 ≤ i ∧ i ≤ int32Max := by
  have hmax := cfg.window_max
  have htotal := h.total
  by_cases hpad : frame.length ≠ frame.payload
  · obtain ⟨increments, heq, hsum, hrange, hpos⟩ :=
      @updateStreamInputWindow_spec { s with avail := s.avail - frame.length }
        (frame.length - frame.payload) (by simp only; omega)
        (by simp only; omega)
    refine ⟨increments, ?_, hsum, fun i hi => ⟨?_, hrange i hi⟩⟩
    · rw [if_pos hpad, heq]
    · exact hpos (by simp only; omega) i hi
  · refine ⟨[], ?_, by simp, by simp⟩
    rw [if_neg hpad]
    have hzero : frame.length - frame.payload = 0 := by omega
    simp [hzero]

/-- Padding is given back, the payload later. -/
theorem handleStreamData_good (env : Env) (h : s.Ok cfg)
    (hle : (frame.length : Int) ≤ s.avail)
    (hpayload : frame.payload ≤ frame.length)
    (hmax : frame.length ≤ maxFrameSize) :
    Good cfg (s.avail - frame.length) (handleStreamData cfg env s frame) := by
  unfold handleStreamData
  split
  · exact (streamReset_keeps env h).mono (by omega)
  obtain ⟨increments, heq, hsum, hrange⟩ := padding_spec h hle hpayload
  simp only [heq]
  have htotal := h.total
  split
  · refine Good.after (handleRequestBodyChunk_good env frame.endStream
      ?_ h.entity ?_ fun hfirst => ⟨?_, (h.first hfirst).2⟩) le_rfl hrange
    · simp only
      omega
    · unfold Stream.credit at htotal ⊢
      simp only
      omega
    · have hinitial := (h.first hfirst).1
      unfold streamInitialWindowSize at hinitial
      unfold maxFrameSize at hmax
      simp only
      omega
  · rename_i hnone
    refine ⟨fun s' hs' => ?_, ?_, hrange⟩
    · cases hs'
      refine ⟨⟨by simp only; omega, ?_, h.entity, fun hfirst => ?_⟩, le_rfl⟩
      · unfold Stream.credit at htotal ⊢
        simp only
        omega
      · have hinitial := (h.first hfirst).1
        refine ⟨?_, (h.first hfirst).2⟩
        simp only
        omega
    · simp only
      omega

/-- A request that is run. It is granted the rest of its window if its body is
to be streamed. -/
theorem processRequest_good (havail : 0 ≤ s.avail)
    (hentity : s.entity.getD 0 ≤ s.buf)
    (hstate : s.state ≠ .openBeforeFirstFrame) (hpending : s.pending = false)
    (htotal : s.avail + s.bytesUnnotified + s.buf +
      (if s.proceedReq then cfg.grant else 0) ≤ cfg.activeStreamWindowSize)
    (hpos : s.proceedReq = true →
      0 < s.avail + s.bytesUnnotified + cfg.grant) :
    Good cfg s.avail ((processRequest cfg s).map fun r =>
      (some r.1, r.2)) := by
  unfold processRequest
  split
  · rename_i hp
    rw [if_pos hp] at htotal
    split
    · exact Fault.noConfusion
    · refine @update_keeps cfg { s with streamed := true } cfg.grant havail
        hentity hstate ?_ (hpos hp)
      rw [credit_of_not_pending (s := { s with streamed := true }) hstate
        (.inl hpending)]
      simp only
      omega
  · rename_i hp
    rw [if_neg hp] at htotal
    refine keeps_some ⟨havail, ?_, hentity, fun hfirst =>
      absurd hfirst hstate⟩ le_rfl
    rw [credit_of_not_pending hstate (.inl hpending)]
    omega

/-- What the application took is given back. -/
theorem proceedRequest_good (env : Env) {err : Bool} (h : s.Ok cfg)
    (hpos : err = false → s.state = .open →
      0 < s.avail + s.bytesUnnotified + s.entity.getD 0) :
    Good cfg s.avail (proceedRequest env s err) := by
  unfold proceedRequest
  split
  · exact Fault.noConfusion
  have hle := h.entity
  have htotal := h.total
  -- what has been written leaves the buffer
  have hbuf : Stream.Ok cfg
      { s with buf := s.buf - s.entity.getD 0, entity := Option.none } := by
    refine ⟨h.avail, ?_, Nat.zero_le _, h.first⟩
    unfold Stream.credit at htotal ⊢
    simp only
    omega
  simp only
  split
  · unfold proceedRequestError
    split
    · exact Fault.noConfusion
    · exact streamReset_keeps env hbuf.closed
  rename_i herr
  rcases hs : s.state with _ | _ | _ | _ | _
  · exact Fault.noConfusion
  · exact Fault.noConfusion
  · have hgood := @update_keeps cfg
      { s with buf := s.buf - s.entity.getD 0, entity := Option.none }
      (s.entity.getD 0) h.avail (Nat.zero_le _) (by simp [hs])
      (by unfold Stream.credit at htotal ⊢; simp only; omega)
      (hpos (by simpa using herr) hs)
    rw [hs] at hgood
    revert hgood
    cases updateStreamInputWindow _ (s.entity.getD 0) with
    | error fault => exact id
    | ok r =>
      intro hkeeps
      obtain ⟨hok, hle'⟩ := hkeeps.ok _ rfl
      simp only
      split
      · have hgood := Good.after (writeStreamingBody_good env hok)
          hle' hkeeps.inRange
        revert hgood
        cases writeStreamingBody env r.1 <;> simp [Except.map]
      · exact hkeeps
  · rw [hs] at hbuf
    simp only
    split
    · exact Fault.noConfusion
    · exact writeStreamingBody_good env hbuf
  · exact Fault.noConfusion

-- ==== connection

/-- The increments sent for a stream, added up. -/
def Conn.granted (c : Conn) (id : Nat) : Nat :=
  ((c.emitted.filter fun p => p.1 = id).map Prod.snd).sum

structure Conn.Inv (c : Conn) : Prop where
  window : 0 ≤ c.inputWindow ∧ c.inputWindow ≤ connectionWindowSize
  stream : ∀ id s, c.streams id = some s → id ≠ 0 ∧ id ≤ c.maxOpen ∧
    s.Ok c.cfg ∧ streamInitialWindowSize + (c.granted id : Int) ≤
      c.arrived id + s.avail
  total : ∀ id, id ≠ 0 → streamInitialWindowSize + c.granted id ≤
    c.arrived id + c.cfg.activeStreamWindowSize
  fresh : ∀ id, c.maxOpen < id → c.granted id = 0
  inRange : ∀ p ∈ c.emitted, 1 ≤ p.2 ∧ p.2 ≤ int32Max

variable {c : Conn}

theorem Conn.granted_append (c : Conn) (id i : Nat) (increments : List Nat) :
    Conn.granted { c with
      emitted := c.emitted ++ increments.map fun n => (id, n) } i =
      c.granted i + if i = id then increments.sum else 0 := by
  have hmap : ((increments.map fun n => (id, n)).filter
      fun p => p.1 = i).map Prod.snd = if i = id then increments else [] := by
    rw [filter_map]
    by_cases h : i = id
    · simp [h]
    · simp [h, Ne.symm h]
  unfold Conn.granted
  rw [filter_append, map_append, sum_append, hmap]
  split <;> rfl

theorem Conn.create_inv (cfg : Config) : (Conn.create cfg).Inv := by
  have hmin := cfg.window_min
  have hgranted : ∀ id, id ≠ 0 → (Conn.create cfg).granted id = 0 := by
    intro id hid
    simp [Conn.granted, Conn.create, Ne.symm hid]
  refine ⟨?_, fun id s hs => absurd hs (by simp [Conn.create]), ?_, ?_, ?_⟩
  · simp [Conn.create]
  · intro id hid
    rw [hgranted id hid]
    simp only [Conn.create]
    omega
  · intro id hid
    exact hgranted id (Nat.pos_iff_ne_zero.1 (Nat.zero_lt_of_lt hid))
  · intro p hp
    rw [mem_singleton.1 hp]
    decide

/-- The outcome of a handler, for a stream whose window was `base`. -/
theorem Conn.Inv.commit (h : c.Inv) (hid : id ≠ 0) (hopen : id ≤ c.maxOpen)
    (hbase : streamInitialWindowSize + (c.granted id : Int) ≤
      c.arrived id + base) (hr : Keeps c.cfg base r) :
    (c.commit id r).Inv := by
  have hgranted : ∀ i, (c.commit id r).granted i =
      c.granted i + if i = id then r.2.sum else 0 :=
    fun i => c.granted_append id i r.2
  refine ⟨h.window, fun i s hs => ?_, fun i hi => ?_, fun i hi => ?_,
    fun p hp => ?_⟩
  · rw [hgranted]
    by_cases heq : i = id
    · subst heq
      have hr' : r.1 = some s := by simpa [Conn.commit] using hs
      obtain ⟨hok, hle⟩ := hr.ok s hr'
      refine ⟨hid, hopen, hok, ?_⟩
      rw [if_pos rfl]
      simp only [Conn.commit]
      omega
    · rw [if_neg heq]
      exact h.stream i s (by simpa [Conn.commit, heq] using hs)
  · rw [hgranted]
    by_cases heq : i = id
    · subst heq
      have hle := hr.le
      rw [if_pos rfl]
      simp only [Conn.commit]
      omega
    · rw [if_neg heq]
      exact h.total i hi
  · have hne : i ≠ id := by
      rintro rfl
      exact absurd hi (not_lt.2 hopen)
    rw [hgranted, if_neg hne]
    exact h.fresh i hi
  · rcases mem_append.1 hp with hp | hp
    · exact h.inRange p hp
    · obtain ⟨n, hn, rfl⟩ := mem_map.1 hp
      exact hr.inRange n hn

theorem Conn.Inv.close (h : c.Inv) (id : Nat) :
    (c.commit id (Option.none, [])).Inv := by
  cases hs : c.streams id with
  | none =>
    have hsame : (fun i => if i = id then Option.none else c.streams i) =
        c.streams := by
      funext i
      split
      next hi => rw [hi, hs]
      · rfl
    rw [Conn.commit, hsame, map_nil, append_nil]
    exact h
  | some s =>
    obtain ⟨hne, hopen, hok, hbound⟩ := h.stream id s hs
    exact h.commit hne hopen hbound (keeps_none hok)

/-- A stream that is new. -/
theorem Conn.Inv.openStream {r : Stream × List Nat} (h : c.Inv)
    (hid : c.maxOpen < id)
    (hr : Keeps c.cfg streamInitialWindowSize (some r.1, r.2)) :
    (c.openStream id r).Inv := by
  have hopen : Conn.Inv { c with maxOpen := id } := by
    refine ⟨h.window, fun i s hs => ?_, h.total, fun i hi => ?_, h.inRange⟩
    · obtain ⟨hne, hle, hrest⟩ := h.stream i s hs
      exact ⟨hne, hle.trans hid.le, hrest⟩
    · exact h.fresh i (hid.trans hi)
  have hzero : Conn.granted { c with maxOpen := id } id = 0 := h.fresh id hid
  refine hopen.commit (Nat.pos_iff_ne_zero.1 (Nat.zero_lt_of_lt hid))
    le_rfl ?_ hr
  rw [hzero]
  omega

/-- The connection when data has been counted and increments have been sent. -/
def Conn.counted (c : Conn) (id length : Nat) (window : Int)
    (increments : List Nat) : Conn :=
  { c with
    inputWindow := window
    arrived := fun i => if i = id then c.arrived i + length else c.arrived i
    emitted := c.emitted ++ increments.map fun n => (0, n) }

theorem Conn.granted_counted {window : Int} {i : Nat}
    (hi : i ≠ 0) : (c.counted id length window increments).granted i =
      c.granted i := by
  refine (c.granted_append 0 i increments).trans ?_
  rw [if_neg hi, add_zero]

/-- The connection's window is filled up at half. -/
theorem Conn.Inv.counted {window : Int} (h : c.Inv)
    (hwindow : 0 ≤ window ∧ window ≤ connectionWindowSize)
    (hrange : ∀ i ∈ increments, 1 ≤ i ∧ i ≤ int32Max) :
    (c.counted id length window increments).Inv := by
  have harrived : ∀ i,
      c.arrived i ≤ (c.counted id length window increments).arrived i := by
    intro i
    simp only [Conn.counted]
    split <;> omega
  refine ⟨hwindow, fun i s hs => ?_, fun i hi => ?_, fun i hi => ?_,
    fun p hp => ?_⟩
  · obtain ⟨hne, hopen, hok, hbound⟩ := h.stream i s hs
    have hle := harrived i
    refine ⟨hne, hopen, hok, ?_⟩
    rw [granted_counted hne]
    omega
  · have hbound := h.total i hi
    have hle := harrived i
    rw [granted_counted hi]
    exact hbound.trans (Nat.add_le_add_right hle _)
  · rw [granted_counted (Nat.ne_of_gt (Nat.zero_lt_of_lt hi))]
    exact h.fresh i hi
  · rcases mem_append.1 hp with hp | hp
    · exact h.inRange p hp
    · obtain ⟨n, hn, rfl⟩ := mem_map.1 hp
      exact hrange n hn

/-- The window of the connection, for data that is within it. -/
theorem Conn.consume_spec (id : Nat) (h : c.Inv)
    (hle : (length : Int) ≤ c.inputWindow) :
    ∃ window increments, c.consume id length =
      .ok (c.counted id length window increments) ∧
        (c.counted id length window increments).Inv := by
  obtain ⟨hnonneg, hmax⟩ := h.window
  unfold connectionWindowSize at hmax
  unfold Conn.consume
  simp only
  split
  · rename_i hhalf
    have hsize := @toSizeT_of_nonneg ((connectionWindowSize : Int) -
      (c.inputWindow - length))
      (by unfold connectionWindowSize; omega)
      (by unfold connectionWindowSize; omega)
    generalize toSizeT ((connectionWindowSize : Int) -
      (c.inputWindow - length)) = delta at hsize
    unfold connectionWindowSize at hsize hhalf
    have hdelta : ¬ delta > int32Max := by
      unfold int32Max
      omega
    have hfull : windowUpdate (c.inputWindow - length) delta =
        connectionWindowSize := by
      unfold windowUpdate int32Max connectionWindowSize
      rw [if_neg (by omega)]
      omega
    rw [sendWindowUpdate, if_neg hdelta, hfull]
    exact ⟨connectionWindowSize, [delta], rfl, h.counted ⟨by simp, le_rfl⟩
      (by simp only [mem_singleton]; omega)⟩
  · exact ⟨c.inputWindow - length, [], by simp [Conn.counted],
      h.counted ⟨by omega, by unfold connectionWindowSize; omega⟩ (by simp)⟩

-- ==== steps

/-- A DATA frame stays within the windows that have been advertised. -/
def Conn.Advertised (c : Conn) : Event → Prop
  | .data _ id frame => (frame.length : Int) ≤ c.inputWindow ∧
      ∀ s ∈ c.streams id, (frame.length : Int) ≤ s.avail
  | _ => True

/-- A stream whose window is used up is to be updated by nothing: nothing is
waiting to be notified, and `proceed_req` is called for no bytes or the
request is granted nothing in addition. -/
def Conn.EmptyUpdate (c : Conn) : Event → Prop
  | .proceedReq _ id err => err = false ∧ ∃ s ∈ c.streams id,
      s.state = .open ∧ s.entity.getD 0 = 0 ∧ s.bytesUnnotified = 0 ∧
        s.avail = 0
  | .runPending id =>
    ∃ s ∈ c.streams id, s.pending = true ∧ s.proceedReq = true ∧
      c.cfg.grant = 0 ∧
        s.bytesUnnotified = 0 ∧ s.avail = 0
  | _ => False

instance (c : Conn) (e : Event) : Decidable (c.Advertised e) := by
  cases e <;> (unfold Conn.Advertised; infer_instance)

instance (c : Conn) (e : Event) : Decidable (c.EmptyUpdate e) := by
  cases e <;> (unfold Conn.EmptyUpdate; infer_instance)

/-- A step that leaves the windows in order, or stops for another reason. -/
def Sound : Except Fault Conn → Prop
  | .ok c => c.Inv
  | .error fault => fault ≠ .windowDelta

/-- A handler of a stream whose window was `base`. -/
theorem sound_commit (h : c.Inv) (hne : id ≠ 0) (hopen : id ≤ c.maxOpen)
    (hbound : streamInitialWindowSize + (c.granted id : Int) ≤
      c.arrived id + base) (hx : Good c.cfg base x) :
    Sound (x.map (c.commit id)) := by
  cases x with
  | error fault => exact hx
  | ok r => exact h.commit hne hopen hbound hx

theorem keeps_create {body : Bool} {s : Stream}
    (hs : s = if body then .create .openBeforeFirstFrame contentLength
      else { Stream.create .none contentLength with pending := true }) :
    Keeps cfg streamInitialWindowSize (some s, []) := by
  have hmin := cfg.window_min
  subst hs
  cases body with
  | true =>
    refine keeps_some ⟨Int.natCast_nonneg _, ?_, le_rfl, fun _ =>
      ⟨add_zero _, rfl⟩⟩ le_rfl
    rw [if_pos rfl, Stream.credit, if_pos (.inl rfl)]
    simp only [Stream.create, Config.grant]
    omega
  | false =>
    refine keeps_some ⟨Int.natCast_nonneg _, ?_, le_rfl,
      fun hfirst => ReqBodyState.noConfusion hfirst⟩ le_rfl
    rw [if_neg Bool.false_ne_true,
      credit_of_not_pending ReqBodyState.noConfusion (.inr rfl)]
    simp only [Stream.create]
    omega

theorem immediate_good {x : Except Fault (Stream × List Nat)}
    (hx : processRequest cfg (.immediate contentLength) = x) :
    Good cfg streamInitialWindowSize (x.map fun r => (some r.1, r.2)) := by
  have hmin := cfg.window_min
  have himmediate : ∃ s : Stream, Stream.immediate contentLength = s ∧
      s.avail = streamInitialWindowSize ∧ s.bytesUnnotified = 0 ∧ s.buf = 0 ∧
      s.proceedReq = true ∧ s.pending = false ∧ s.entity = some 0 ∧
        s.state = .open :=
    ⟨_, rfl, rfl, rfl, rfl, rfl, rfl, rfl, rfl⟩
  obtain ⟨s, heq, havail, hunnotified, hbuf, hproceed, hpending, hentity,
      hstate⟩ := himmediate
  rw [← hx, heq, ← havail]
  refine processRequest_good (by omega) (by simp [hentity]) (by simp [hstate])
    hpending ?_
    fun _ => ?_
  · rw [if_pos hproceed, Config.grant]
    omega
  · rw [havail, streamInitialWindowSize]
    omega

/-- First the connection, then the stream. -/
theorem handleDataFrame_sound (env : Env) (h : c.Inv)
    (hle : (frame.length : Int) ≤ c.inputWindow)
    (hs : ∀ s ∈ c.streams id, (frame.length : Int) ≤ s.avail) :
    Sound (c.handleDataFrame env id frame) := by
  unfold Conn.handleDataFrame
  split
  · exact h
  rename_i hframe
  rw [not_or, not_lt] at hframe
  obtain ⟨window, increments, heq, hinv⟩ := Conn.consume_spec id h hle
  have hstreams : (c.counted id frame.length window increments).streams =
      c.streams := rfl
  simp only [heq, hstreams]
  cases hget : c.streams id with
  | none => exact hinv
  | some s =>
    obtain ⟨hne, hopen, hok, hbound⟩ := h.stream id s hget
    have hpayload : frame.payload ≤ frame.length := by
      unfold DataFrame.length
      split <;> omega
    refine sound_commit hinv hne hopen ?_
      (handleStreamData_good env hok (hs s hget) hpayload hframe.2)
    rw [Conn.granted_counted hne]
    simp only [Conn.counted]
    push_cast
    omega

/-- What each event keeps. -/
theorem step_sound {e : Event} (h : c.Inv) (hwindow : c.Advertised e)
    (hempty : ¬ c.EmptyUpdate e) : Sound (c.step e) := by
  have hmin := c.cfg.window_min
  cases e with
  | headers id body contentLength =>
    unfold Conn.step
    simp only
    split
    · exact h
    · rename_i hid
      rw [not_or, not_le] at hid
      split
      · rename_i hbody
        exact h.openStream hid.2 (keeps_create (if_pos hbody).symm)
      · rename_i hbody
        exact h.openStream hid.2 (keeps_create (if_neg hbody).symm)
  | headersImmediate id contentLength =>
    unfold Conn.step
    simp only
    split
    · exact h
    · rename_i hid
      rw [not_or, not_le] at hid
      cases hx : processRequest c.cfg (.immediate contentLength) with
      | error fault => exact immediate_good hx
      | ok r => exact h.openStream hid.2 (immediate_good hx)
  | data env id frame => exact handleDataFrame_sound env h hwindow.1 hwindow.2
  | trailers env id =>
    unfold Conn.step
    simp only
    cases hs : c.streams id with
    | none => exact h
    | some s =>
      obtain ⟨hne, hopen, hok, hbound⟩ := h.stream id s hs
      simp only
      split
      · exact h
      · refine sound_commit h hne hopen hbound (handleRequestBodyChunk_good env
          true hok.avail hok.entity hok.total fun hfirst => ?_)
        obtain ⟨hinitial, hpending⟩ := hok.first hfirst
        unfold streamInitialWindowSize at hinitial
        exact ⟨by omega, hpending⟩
  | runPending id =>
    unfold Conn.step
    simp only
    cases hs : c.streams id with
    | none => exact h
    | some s =>
      obtain ⟨hne, hopen, hok, hbound⟩ := h.stream id s hs
      simp only
      split
      · rename_i hp
        have hstate : s.state ≠ .openBeforeFirstFrame := by
          intro hfirst
          rw [(hok.first hfirst).2] at hp
          cases hp
        have htotal := hok.total
        have hgood := @processRequest_good c.cfg { s with pending := false }
          hok.avail hok.entity hstate rfl
          (by
            simp only [Stream.credit, hstate, hp, true_and,
              false_or] at htotal ⊢
            exact htotal)
          (by
            intro hreq
            have havail := hok.avail
            by_contra hnot
            simp only at hnot
            exact hempty ⟨s, hs, hp, hreq, by omega, by omega, by omega⟩)
        revert hgood
        cases processRequest c.cfg { s with pending := false } with
        | error fault => exact fun hfault => hfault
        | ok r => exact h.commit hne hopen hbound
      · exact h
  | setWriteReq id writeReq =>
    unfold Conn.step
    simp only
    cases hs : c.streams id with
    | none => exact h
    | some s =>
      obtain ⟨hne, hopen, hok, hbound⟩ := h.stream id s hs
      exact h.commit hne hopen hbound (keeps_some { hok with } le_rfl)
  | proceedReq env id err =>
    unfold Conn.step
    simp only
    cases hs : c.streams id with
    | none => exact Fault.noConfusion
    | some s =>
      obtain ⟨hne, hopen, hok, hbound⟩ := h.stream id s hs
      refine sound_commit h hne hopen hbound
        (proceedRequest_good env hok fun herr hstate => ?_)
      have havail := hok.avail
      by_contra hnot
      exact hempty ⟨herr, s, hs, hstate, by omega, by omega, by omega⟩
  | close id => exact h.close id

-- ==== runs

/-- Unless a stream is updated by nothing, every increment is one that a
WINDOW_UPDATE frame may carry, and those of a stream stay within what has
arrived and its largest window. -/
theorem increments_inRange (cfg : Config) (es : List Event)
    (hwindow : Meets Conn.step Conn.Advertised (.create cfg) es)
    (hempty : Meets Conn.step (fun c e => ¬ c.EmptyUpdate e)
      (.create cfg) es) :
    (∀ c, es.foldlM Conn.step (.create cfg) = .ok c →
      (∀ p ∈ c.emitted, 1 ≤ p.2 ∧ p.2 ≤ 2 ^ 31 - 1) ∧
      ∀ id, id ≠ 0 → streamInitialWindowSize + c.granted id ≤
        c.arrived id + c.cfg.activeStreamWindowSize) ∧
    es.foldlM Conn.step (.create cfg) ≠ .error .windowDelta := by
  have hstep : ∀ (c : Conn) (e : Event), c.Inv → c.Advertised e ∧
      ¬ c.EmptyUpdate e →
      (∀ c', c.step e = .ok c' → c'.Inv) ∧
        ∀ fault, c.step e = .error fault → fault ≠ .windowDelta := by
    intro c e hc hcond
    have hsound := step_sound hc hcond.1 hcond.2
    refine ⟨fun c' hc' => ?_, fun fault hfault => ?_⟩
    · rw [hc'] at hsound
      exact hsound
    · rw [hfault] at hsound
      exact hsound
  obtain ⟨hok, herr⟩ :=
    run_outcome hstep (Conn.create_inv cfg) (hwindow.and hempty)
  exact ⟨fun c hc => ⟨(hok c hc).inRange, (hok c hc).total⟩, fun h =>
    herr _ h rfl⟩

/-- The handler takes a streamed body, and nothing fails. -/
def quietEnv : Env where
  canStream := true
  disregarded := false
  writeFails := false
  closes := false

/-- A request whose body is streamed; the application takes what arrives. -/
def uploadEvents : List Event :=
  [.headers 1 true Option.none,
   .data quietEnv 1 ⟨1000, some 20, false⟩, .runPending 1, .setWriteReq 1 true,
   .data quietEnv 1 ⟨16384, Option.none, false⟩, .proceedReq quietEnv 1 false]

theorem increments_inRange_upload :
    let cfg : Config := ⟨131070, 1000000, by decide, by decide⟩
    Meets Conn.step Conn.Advertised (.create cfg) uploadEvents ∧
    (∃ c, uploadEvents.foldlM Conn.step (.create cfg) = .ok c ∧
      c.emitted = [(0, 16711681), (1, 65556)] ∧
      (∀ p ∈ c.emitted, 1 ≤ p.2 ∧ p.2 ≤ 2 ^ 31 - 1) ∧
      ∀ id, id ≠ 0 → streamInitialWindowSize + c.granted id ≤
        c.arrived id + c.cfg.activeStreamWindowSize) ∧
    uploadEvents.foldlM Conn.step (.create cfg) ≠ .error .windowDelta := by
  intro cfg
  have hreaches : reaches Conn.step
      (fun c => decide (c.emitted = [(0, 16711681), (1, 65556)]))
      (.create cfg) uploadEvents = true := by
    decide +kernel
  obtain ⟨c, hrun, htest⟩ := exists_of_reaches hreaches
  have hwindow : Meets Conn.step Conn.Advertised (.create cfg) uploadEvents :=
    by decide +kernel
  obtain ⟨hrange, hfault⟩ :=
    increments_inRange cfg uploadEvents hwindow (by decide +kernel)
  exact ⟨hwindow, ⟨c, hrun, of_decide_eq_true htest, hrange c hrun⟩, hfault⟩

/-- A tunnel: the client fills its window while the server still connects.
Then `proceed_req` is called for the entity of no bytes that a CONNECT request
comes with. -/
def tunnelEvents : List Event :=
  [.headersImmediate 1 Option.none, .setWriteReq 1 true,
   .data quietEnv 1 ⟨16384, Option.none, false⟩,
   .data quietEnv 1 ⟨16384, Option.none, false⟩,
   .data quietEnv 1 ⟨16384, Option.none, false⟩,
   .data quietEnv 1 ⟨16383, Option.none, false⟩,
   .proceedReq quietEnv 1 false]

theorem tunnel_increment_zero :
    let cfg : Config := ⟨65535, 1000000, by decide, by decide⟩
    Meets Conn.step Conn.Advertised (.create cfg) tunnelEvents ∧
    ∃ c, tunnelEvents.foldlM Conn.step (.create cfg) = .ok c ∧
      (1, 0) ∈ c.emitted := by
  intro cfg
  have hreaches : reaches Conn.step
      (fun c => decide ((1, 0) ∈ c.emitted)) (.create cfg) tunnelEvents =
      true := by
    decide +kernel
  obtain ⟨c, hrun, htest⟩ := exists_of_reaches hreaches
  exact ⟨by decide +kernel, c, hrun, of_decide_eq_true htest⟩

end H2o.Http2Server
