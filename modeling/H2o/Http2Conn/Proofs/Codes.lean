/-
The error codes that the server sends.

Every handler returns an error code of the specification (`Good`), but for
trailers with a character that is not allowed, for which
`H2O_HTTP2_ERROR_INVALID_HEADER_CHAR` goes out in a GOAWAY frame as 254.
-/
import H2o.Http2Conn.Proofs.Answers

namespace H2o.Http2Conn

open Http2 Lib List

variable {env : Env}

def CodesOk (out : List ErrorFrame) (_ : Expect) (_ : ConnState) : Prop :=
  ∀ f ∈ out, f.code ≤ 13

/-- The codes that have been sent are those of the specification. -/
abbrev OutOk : Conn → Prop := Sees CodesOk

theorem allows_codesOk : Allows CodesOk CodeOk where
  send hcode h g hg := by
    rcases mem_append.1 hg with hg | hg
    · exact h g hg
    · rw [mem_singleton.1 hg]
      exact hcode
  shutdown _ h := h
  close h := h
  expect _ h := h
  code h := h

/-- What a handler returns. -/
def Good (r : Conn × Int) : Prop := OutOk r.1 ∧ CodeOk r.2

-- ==== reads

/-- The trailers that the next frame makes complete. -/
def Reader.trailerBlock (r : Reader) : Option Bytes :=
  match readFrame r.input with
  | .error _ => none
  | .ok (f, _) =>
    match r.conn.readExpect with
    | .preface => none
    | .default =>
      if f.type = .headers ∧ f.endHeaders ∧
        f.streamId ≤ r.conn.pullMaxOpen then
        match decodeHeadersPayload f with
        | .error _ => none
        | .ok (_, src) => some src
      else none
    | .continuation =>
      match r.conn.getStream f.streamId with
      | none => none
      | some s =>
        if f.type = .continuation ∧ f.endHeaders ∧ s.state = .recvBody then
          some (r.conn.headersUnparsed.getD [] ++ f.payload)
        else none

/-- Trailers that are complete have no character that is not allowed. -/
def CleanTrailers (r : Reader) : Event → Prop
  | .parse _ =>
    ∀ block ∈ r.trailerBlock, cleanBlock r.conn.inputTable block = true
  | .receive _ | .call _ => True

instance (r : Reader) (e : Event) : Decidable (CleanTrailers r e) :=
  match e with
  | .parse _ =>
    inferInstanceAs (Decidable (∀ block ∈ r.trailerBlock,
      cleanBlock r.conn.inputTable block = true))
  | .receive _ | .call _ => isTrue trivial

/-- What `_read_expect` gives: a code that `parse_input` does not send, one of
the specification, or a number of octets. -/
def ExpectOk (r : Conn × Int) : Prop :=
  OutOk r.1 ∧ (r.2 = incomplete ∨ r.2 = protocolCloseImmediately ∨ -13 ≤ r.2)

section Trailers

variable {r : Reader} {f : Frame} {rest : Bytes}

theorem good_handleFrame (h : OutOk r.conn)
    (hexpect : r.conn.readExpect ≠ .preface)
    (hread : readFrame r.input = .ok (f, rest))
    (hclean : CleanTrailers r (.parse env)) :
    Ensures Good (r.conn.handleFrame env f) := by
  unfold Conn.handleFrame
  split
  next hcont =>
    refine allows_codesOk.handleContinuationFrame h f ?_
    intro s hs htype hend hstate
    refine .inr (hclean _ ?_)
    simp only [Reader.trailerBlock, hread, hcont, hs]
    rw [if_pos ⟨htype, hend, hstate⟩]
    rfl
  next hpreface => exact absurd hpreface hexpect
  next hdefault =>
    refine allows_codesOk.frameHandler h f ?_
    intro htype dependency src hsrc hid hend
    refine .inr (hclean _ ?_)
    simp only [Reader.trailerBlock, hread, hdefault, hsrc]
    rw [if_pos ⟨htype, hend, hid⟩]
    rfl

theorem expectOk_expect (h : OutOk r.conn)
    (hclean : CleanTrailers r (.parse env)) :
    Ensures ExpectOk (r.conn.expect env r.input) := by
  by_cases hexpect : r.conn.readExpect = .preface
  · rw [Conn.expect_preface hexpect]
    refine .ok ?_
    unfold Conn.expectPreface
    split_ifs
    · exact ⟨h, .inl rfl⟩
    · exact ⟨h, .inr (.inl rfl)⟩
    · exact ⟨h, .inr (.inr (by dsimp only; omega))⟩
  · cases hread : readFrame r.input with
    | error code =>
      rw [Conn.expect_error hexpect hread]
      refine .ok ⟨h, ?_⟩
      rcases readFrame_error hread with rfl | rfl
      · exact .inl rfl
      · exact .inr (.inr (by decide : -13 ≤ value .frameSize))
    | ok p =>
      rw [Conn.expect_frame hexpect hread]
      refine (good_handleFrame h hexpect hread hclean).map ?_
      rintro ⟨c, code⟩ ⟨hout, hcode⟩
      refine ⟨hout, .inr (.inr ?_)⟩
      split
      · exact hcode.1
      · obtain ⟨header, -, hsrc⟩ := readFrame_ok hread
        rw [hsrc, length_append, length_append]
        omega

end Trailers

theorem outOk_afterExpect (r : Reader) {result : Conn × Int}
    (h : ExpectOk result) : OutOk (r.afterExpect result).1.conn := by
  obtain ⟨hout, hcode⟩ := h
  unfold Reader.afterExpect
  split_ifs with hincomplete hneg himmediate
  · exact hout
  · exact hout
  · refine sees_enqueueGoaway allows_codesOk.toKept hout ⟨?_, by omega⟩
    tauto
  · exact hout

/-- A step of the connection. -/
theorem outOk_step {r : Reader} {e : Event} (h : OutOk r.conn)
    (hclean : CleanTrailers r e) :
    Ensures (fun r' => OutOk r'.conn) (r.step e) := by
  cases e with
  | receive bytes => exact .ok h
  | parse env =>
    have hparse : Ensures (fun p => OutOk p.1.conn) (r.parseFrame env) := by
      refine .ite (.ok h) ?_
      exact (expectOk_expect h hclean).map fun _ => outOk_afterExpect r
    exact hparse.map fun _ hp => hp
  | call call =>
    exact (keeps_call h allows_codesOk.toKept call).map fun _ hc => hc

/-- Every error code in a GOAWAY or RST_STREAM frame is one of the
specification, if no trailers have a character that is not allowed. -/
theorem error_codes_le (cfg : Config) {events : List Event} {r : Reader}
    (hclean : Meets Reader.step CleanTrailers (.create cfg) events)
    (hrun : events.foldlM Reader.step (.create cfg) = .ok r) :
    ∀ f ∈ r.conn.out, f.code ≤ 13 := by
  have hstep : ∀ r e r', OutOk r.conn → CleanTrailers r e → r.step e = .ok r' →
      OutOk r'.conn :=
    fun r e r' h hclean => outOk_step h hclean r'
  have hinit : OutOk (Reader.create cfg).conn :=
    fun f hf => absurd hf not_mem_nil
  exact run_invariant (I := fun r => OutOk r.conn) hstep hinit hclean hrun

/-- A POST request whose trailers have a field `a` with this value, and a DATA
frame behind them. -/
def postWithTrailer (v : UInt8) : List Event :=
  [.receive (connectionPreface ++ [0, 0, 3, 1, 4, 0, 0, 0, 1, 0x83, 0x86,
    0x84] ++
      [0, 0, 5, 1, 5, 0, 0, 0, 1, 0x00, 0x01, 0x61, 0x01, v] ++
      [0, 0, 1, 0, 0, 0, 0, 0, 1, 0x2a])] ++
    List.replicate 4 (.parse ⟨false, false, false, true⟩)

def smallConfig : Config where
  maxStreams := 100
  maxStreamsForPriority := 16
  maxConcurrentRequests := 100
  maxConcurrentStreamingRequests := 1
  maxRequestEntitySize := 1073741824

/-- The DATA frame comes after the end of the stream. -/
theorem error_codes_le_closedStream :
    ∃ r, (postWithTrailer 0x62).foldlM Reader.step (.create smallConfig) =
      .ok r ∧
      ErrorFrame.rstStream 1 5 ∈ r.conn.out ∧
      ∀ f ∈ r.conn.out, f.code ≤ 13 := by
  have hreaches : reaches Reader.step (fun r =>
      decide (ErrorFrame.rstStream 1 5 ∈ r.conn.out))
      (.create smallConfig) (postWithTrailer 0x62) = true := by decide +kernel
  obtain ⟨r, hrun, hout⟩ := exists_of_reaches hreaches
  have hclean : Meets Reader.step CleanTrailers (.create smallConfig)
      (postWithTrailer 0x62) := by decide +kernel
  exact ⟨r, hrun, of_decide_eq_true hout, error_codes_le _ hclean hrun⟩

/-- A line feed in the trailers. -/
theorem goaway_invalidHeaderChar :
    ∃ r, (postWithTrailer 0x0a).foldlM Reader.step (.create smallConfig) =
      .ok r ∧
      ErrorFrame.goaway 1 254 ∈ r.conn.out := by
  have hreaches : reaches Reader.step (fun r =>
      decide (ErrorFrame.goaway 1 254 ∈ r.conn.out))
      (.create smallConfig) (postWithTrailer 0x0a) = true := by decide +kernel
  obtain ⟨r, hrun, hout⟩ := exists_of_reaches hreaches
  exact ⟨r, hrun, of_decide_eq_true hout⟩

end H2o.Http2Conn
