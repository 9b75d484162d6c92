/-
What the handlers of an HTTP/2 connection return.

A handler returns zero or an error code of the specification, with one
exception: `handle_trailing_headers` returns the code of
`h2o_hpack_parse_request` as it is, and for trailers with a character that is
not allowed that is `H2O_HTTP2_ERROR_INVALID_HEADER_CHAR`. `Allows` says what a
property of the connection and of the code has to bear for the handlers to keep
it, and there is one lemma for each of them.

A first such property is that no handler returns
`H2O_HTTP2_ERROR_INCOMPLETE`, which `parse_input` would take for an input that
is too short, or makes the connection expect the preface again (`Answered`).
-/
import H2o.Http2Conn.Proofs.Calls

namespace H2o.Http2Conn

open Http2 Hpack Lib Option Except

variable {src : Bytes} {e : ConnError} {t : HeaderTable}

variable {c : Conn} {id : Nat} {env : Env}

-- ==== decoders

/-- The errors have codes of the specification. -/
def ErrorsOk {α : Type} (r : Except ConnError α) : Prop :=
  ∀ e, r = .error e → CodeOk (value e.code)

section Decoders

variable {α : Type} {f : Frame}

theorem ErrorsOk.ok {a : α} : ErrorsOk (.ok a) := by
  intro e heq
  cases heq

theorem ErrorsOk.error (h : CodeOk (value e.code)) :
    ErrorsOk (.error e : Except ConnError α) := by
  intro e' heq
  obtain rfl := error.inj heq
  exact h

/-- A check that fails with such a code. -/
theorem ErrorsOk.ite {p : Prop} {dec : Decidable p} {r r' : Except ConnError α}
    (h : ErrorsOk r) (h' : ErrorsOk r') : ErrorsOk (if p then r else r') := by
  split
  · exact h
  · exact h'

theorem decodeDataPayload_codes : ErrorsOk (decodeDataPayload f) := by
  refine .ite (.error (by decide)) (.ite ?_ .ok)
  split
  · exact .error (by decide)
  · exact .ite (.error (by decide)) .ok

theorem headersPadding_codes : ErrorsOk (headersPadding f) := by
  refine .ite ?_ .ok
  split
  · exact .error (by decide)
  · exact .ite (.error (by decide)) .ok

/-- The decoders of frames, one by one. -/
theorem decodeHeadersPayload_codes : ErrorsOk (decodeHeadersPayload f) := by
  refine .ite (.error (by decide)) ?_
  split
  next e he => exact .error (headersPadding_codes e he)
  · refine .ite ?_ .ok
    split
    · exact .ok
    · exact .error (by decide)

theorem decodePriorityPayload_codes : ErrorsOk (decodePriorityPayload f) := by
  refine .ite (.error (by decide)) ?_
  split
  · exact .ok
  · exact .error (by decide)

theorem decodeRstStreamPayload_codes :
    ErrorsOk (decodeRstStreamPayload f) := by
  refine .ite (.error (by decide)) ?_
  split
  · exact .ok
  · exact .error (by decide)

theorem decodePingPayload_codes : ErrorsOk (decodePingPayload f) :=
  .ite (.error (by decide)) (.ite (.error (by decide)) .ok)

theorem decodeGoawayPayload_codes : ErrorsOk (decodeGoawayPayload f) := by
  refine .ite (.error (by decide)) ?_
  split
  · exact .ok
  · exact .error (by decide)

theorem decodeWindowUpdatePayload_codes {ofStream : Bool}
    (h : decodeWindowUpdatePayload f = .error (e, ofStream)) :
    CodeOk (value e.code) := by
  unfold decodeWindowUpdatePayload at h
  split at h
  · dsimp only at h
    split at h
    · obtain ⟨rfl, -⟩ := Prod.mk.inj (error.inj h)
      decide
    · cases h
  · obtain ⟨rfl, -⟩ := Prod.mk.inj (error.inj h)
    decide

end Decoders

/-- The codes of the parameters of a SETTINGS frame. -/
theorem settings_set_codes (s : Settings) (identifier : UInt16) (v : UInt32) :
    ErrorsOk (s.set identifier v) := by
  unfold Settings.set
  split
  · exact .ok
  · exact .ite .ok (.error (by decide))
  · exact .ok
  · exact .ite .ok (.error (by decide))
  · exact .ite .ok (.error (by decide))
  · exact .ok

/-- Over the settings of a frame. -/
theorem updatePeerSettings_codes {s : Settings}
    (h : (updatePeerSettings s src).2 = some e) : CodeOk (value e.code) := by
  induction s, src using updatePeerSettings.induct with
  | case1 s a b c d e f src err hset =>
    rw [updatePeerSettings, hset] at h
    cases h
    exact settings_set_codes _ _ _ _ hset
  | case2 s a b c d e f src s' hset ih =>
    rw [updatePeerSettings, hset] at h
    exact ih h
  | case3 s =>
    rw [updatePeerSettings] at h
    cases h
  | case4 s src hshort hnil =>
    rw [updatePeerSettings] at h
    · cases h
      decide
    · exact hshort
    · exact hnil

-- ==== header blocks

section Blocks

variable {r r' : RequestHead} {d : Decoded} {trailers : Bool}

theorem codeOk_protocol : CodeOk (value .protocol) := by decide

/-- Header blocks: a field at a time. -/
theorem parseRequestPseudoHeader_codes :
    ErrorsOk (parseRequestPseudoHeader r d) := by
  refine .ite (.error (by decide)) (.ite ?_ (.ite ?_ (.ite ?_ (.ite ?_ ?_))))
  · exact .ite (.error (by decide)) .ok
  · exact .ite (.error (by decide)) .ok
  · exact .ite (.error codeOk_protocol) .ok
  · exact .ite (.error (by decide)) (.ite (.error (by decide)) .ok)
  · exact .ite (.ite (.error (by decide)) .ok) (.error codeOk_protocol)

theorem parseSpecialHeader_codes {t : Token} {v : Bytes} :
    ErrorsOk (parseSpecialHeader trailers r t v) := by
  refine .ite ?_ (.ite .ok (.ite .ok (.ite .ok (.ite .ok (.ite .ok ?_)))))
  · split
    · exact .error (by decide)
    · exact .ok
  · exact .error (by decide)

theorem parseRequestField_codes :
    ErrorsOk (parseRequestField trailers r d) := by
  refine .ite parseRequestPseudoHeader_codes ?_
  unfold parseRequestHeader
  split
  · exact .ite parseSpecialHeader_codes .ok
  · exact .ok

/-- And the whole block. -/
theorem parseRequestFields_codes {n : Nat} :
    ErrorsOk (parseRequestFields trailers n t r src) := by
  induction n generalizing t r src with
  | zero => exact .ok
  | succ n ih =>
    refine .ite .ok ?_
    split
    next e _ => exact .error (by cases e <;> decide)
    · split
      next e he => exact .error (parseRequestField_codes e he)
      · exact ih

/-- A field changes the soft error of the block as `*err_desc` is written. -/
theorem parseRequestField_errDesc :
    Ensures (fun r' => r'.errDesc = (r.errDesc <|> d.errDesc))
      (parseRequestField trailers r d) := by
  refine .ite ?_ ?_
  · refine .ite (.error _) (.ite ?_ (.ite ?_ (.ite ?_ (.ite ?_ (.ite ?_ ?_)))))
    · exact .ite (.error _) (.ok rfl)
    · exact .ite (.error _) (.ok rfl)
    · exact .ite (.error _) (.ok rfl)
    · exact .ite (.error _) (.ite (.error _) (.ok rfl))
    · exact .ite (.error _) (.ok rfl)
    · exact .error _
  · unfold parseRequestHeader
    split
    · refine .ite (.ite ?_ (.ite (.ok rfl) (.ite (.ok ?_) ?_))) (.ok rfl)
      · split
        · exact .error _
        · exact .ok rfl
      · split <;> rfl
      · exact .ite (.ok rfl) (.ite (.ok rfl) (.ite (.ok rfl) (.error _)))
    · exact .ok rfl

/-- The fields are those of the block, and there is a soft error only if one of
them has it. -/
theorem parseRequestFields_decodes {n : Nat} {t' : HeaderTable}
    (h : parseRequestFields trailers n t r src = .ok (t', r')) :
    ∃ ds, decodeHeaders n t src = .ok (t', ds) ∧
      (r.errDesc = none → (∀ d ∈ ds, d.errDesc = none) →
        r'.errDesc = none) := by
  induction n generalizing t r src with
  | zero =>
    cases h
    exact ⟨[], rfl, fun hr _ => hr⟩
  | succ n ih =>
    rw [parseRequestFields] at h
    by_cases hsrc : src = []
    · rw [if_pos hsrc] at h
      cases h
      exact ⟨[], if_pos hsrc, fun hr _ => hr⟩
    rw [if_neg hsrc] at h
    split at h
    · cases h
    next t₁ d rest hd =>
      split at h
      · cases h
      next r₁ hfield =>
        obtain ⟨ds, hds, hclean⟩ := ih h
        refine ⟨d :: ds, ?_, fun hr hall => ?_⟩
        · rw [decodeHeaders, if_neg hsrc, hd]
          simp only [hds]
        apply hclean
        · rw [parseRequestField_errDesc r₁ hfield, hr,
            hall d List.mem_cons_self]
          rfl
        · intro d' hd'
          exact hall d' (List.mem_cons_of_mem _ hd')

end Blocks

/-- No field of the block has a character that is not allowed. -/
def cleanBlock (t : HeaderTable) (block : Bytes) : Bool :=
  match decodeBlock t block with
  | .error _ => true
  | .ok (_, ds) => ds.all fun d => d.errDesc.isNone

-- ==== handlers

section Handlers

variable {I : List ErrorFrame → Expect → ConnState → Prop} {R : Int → Prop}

/-- What a handler returns. -/
def Returns (I : List ErrorFrame → Expect → ConnState → Prop) (R : Int → Prop)
    (r : Conn × Int) : Prop := Sees I r.1 ∧ R r.2

/-- Codes of the specification do no harm, nor does it that another frame is
expected. -/
structure Allows (I : List ErrorFrame → Expect → ConnState → Prop)
    (R : Int → Prop) : Prop extends Kept I where
  expect : ∀ {out expect expect' state}, expect' ≠ .preface →
    I out expect state → I out expect' state
  code : ∀ {code}, CodeOk code → R code

/-- The code of trailers with a character that is not allowed does no harm, or
this block has none. -/
def BlockAllowed (R : Int → Prop) (t : HeaderTable) (block : Bytes) : Prop :=
  R invalidHeaderChar ∨ cleanBlock t block = true

section

variable (ha : Allows I R)
include ha

theorem Allows.ok {code : Int} (h : Sees I c) (hcode : CodeOk code) :
    Ensures (Returns I R) (.ok (c, code) : Result) :=
  .ok ⟨h, ha.code hcode⟩

theorem Allows.fail (h : Sees I c) (he : CodeOk (value e.code)) :
    Ensures (Returns I R) (fail c e) :=
  ha.ok h he

theorem Allows.zero (h : Sees I c) :
    Ensures (Returns I R) (.ok (c, 0) : Result) :=
  ha.ok h (by decide)

/-- A handler that has no error of its own. -/
theorem Allows.done {r : Except Fault Conn} (h : Ensures (Sees I) r) :
    Ensures (Returns I R) (done r) :=
  h.map fun _ h => ⟨h, ha.code (show CodeOk 0 by decide)⟩

theorem Allows.prepareForContinuation (h : Sees I c) (src : Bytes) :
    Ensures (Returns I R) (.ok (c.prepareForContinuation src, 0) : Result) :=
  ha.zero (ha.expect (show Expect.continuation ≠ .preface by decide) h)

/-- A request fails with the code of its block. -/
theorem Allows.handleIncomingRequest (h : Sees I c) (src : Bytes) :
    Ensures (Returns I R) (c.handleIncomingRequest env id src) := by
  refine .bind_any fun s => .ite (.error _) ?_
  dsimp only
  split
  next e he => exact ha.fail h (parseRequestFields_codes e he)
  next t r _ =>
    exact ha.done (keeps_handleRequest (c := { c with
      blocks := c.blocks ++ [(id, src)], inputTable := t }) h ha.toKept r)

/-- The code of the HPACK decoder is returned, so that the block matters. -/
theorem Allows.handleTrailingHeaders (h : Sees I c)
    (hblock : BlockAllowed R c.inputTable src) :
    Ensures (Returns I R) (c.handleTrailingHeaders env id src) := by
  refine .bind_any fun s => ?_
  dsimp only
  split
  next e he => exact ha.fail h (parseRequestFields_codes e he)
  next t r hparse =>
    refine .dite (fun herr => .ok ⟨h, hblock.resolve_right fun hclean => ?_⟩)
      fun _ => ha.done ?_
    · obtain ⟨ds, hds, hnone⟩ := parseRequestFields_decodes hparse
      rw [cleanBlock, decodeBlock, hds] at hclean
      rw [hnone rfl fun d hd =>
        isNone_iff_eq_none.1 (List.all_eq_true.1 hclean d hd)] at herr
      exact absurd herr Bool.false_ne_true
    · apply keeps_handleRequestBodyChunk _ ha.toKept
      exact h

end

section

variable (ha : Allows I R) (h : Sees I c) (f : Frame)
include ha h

/-- DATA: the payload's code, or the stream is reset. -/
theorem Allows.handleDataFrame :
    Ensures (Returns I R) (c.handleDataFrame env f) := by
  unfold Conn.handleDataFrame
  split
  next e he => exact ha.fail h (decodeDataPayload_codes e he)
  · split
    · refine .ite (ha.done ?_) (ha.fail h (by decide))
      exact keeps_streamSendError ha.toKept h (by decide)
    · refine .ite (ha.done ?_) (.ite (ha.done ?_) (ha.zero h))
      · exact keeps_sendRstStream ha.toKept h (by decide : CodeOk streamClosed)
      · exact keeps_handleRequestBodyChunk h ha.toKept _ _

/-- The trailers of a request that has been opened before. -/
theorem Allows.handleTrailersFrame
    (hblock : f.endHeaders = true → BlockAllowed R c.inputTable src) :
    Ensures (Returns I R) (c.handleTrailersFrame env f src) := by
  unfold Conn.handleTrailersFrame
  split
  · exact ha.ok h (by decide)
  · refine .ite (ha.fail h (by decide)) (.ite (ha.fail h (by decide)) ?_)
    refine .ite (ha.fail h (by decide)) (.dite (fun _ => ?_) fun hend => ?_)
    · exact ha.prepareForContinuation h src
    · exact ha.handleTrailingHeaders h (hblock (by simpa using hend))

theorem Allows.handleRequestFrame (src : Bytes) :
    Ensures (Returns I R) (c.handleRequestFrame env f src) := by
  refine .bind (P := Sees I) (keeps_prepareForRequest ?_) fun c h =>
    .bind_any fun s => ?_
  · split <;> exact h
  · have hbuf : Sees I (if f.endStream then c
        else c.put { s with hasBuf := true, bufSize := 0 }) := by
      split <;> exact h
    exact .ite (ha.handleIncomingRequest hbuf src)
      (ha.prepareForContinuation hbuf src)

/-- HEADERS: a block, or the first part of one. -/
theorem Allows.handleHeadersFrame
    (hblock : ∀ dependency src, decodeHeadersPayload f =
      .ok (dependency, src) →
      f.streamId ≤ c.pullMaxOpen → f.endHeaders = true →
      BlockAllowed R c.inputTable src) : Ensures (Returns I R)
      (c.handleHeadersFrame env f) := by
  unfold Conn.handleHeadersFrame
  split
  next e he => exact ha.fail h (decodeHeadersPayload_codes e he)
  next dependency src hsrc =>
    refine .ite (ha.fail h (by decide)) (.dite (fun hid => ?_) fun _ => ?_)
    · exact ha.handleTrailersFrame h f (hblock dependency src hsrc hid)
    · exact .ite (ha.fail h (by decide)) (ha.handleRequestFrame h f src)

theorem Allows.handlePriorityFrame :
    Ensures (Returns I R) (c.handlePriorityFrame f) := by
  unfold Conn.handlePriorityFrame
  split
  next e he => exact ha.fail h (decodePriorityPayload_codes e he)
  · refine .ite (ha.fail h (by decide)) ?_
    split
    · exact ha.zero h
    · exact .ite (ha.zero h) (.ite (ha.ok h (by decide)) (ha.zero h))

theorem Allows.handleRstStreamFrame :
    Ensures (Returns I R) (c.handleRstStreamFrame f) := by
  unfold Conn.handleRstStreamFrame
  split
  next e he => exact ha.fail h (decodeRstStreamPayload_codes e he)
  · refine .ite (ha.fail h (by decide)) ?_
    split
    · exact ha.zero h
    · exact ha.done (keeps_streamReset h)

/-- SETTINGS: a window that overflows is an error too. -/
theorem Allows.handleSettingsFrame :
    Ensures (Returns I R) (c.handleSettingsFrame f) := by
  refine .ite (ha.fail h (by decide)) (.ite ?_ ?_)
  · exact .ite (ha.fail h (by decide)) (ha.zero h)
  · dsimp only
    split
    next e he => exact ha.fail h (updatePeerSettings_codes he)
    · exact .ite (ha.done (.bind_any fun _ => .ok h)) (ha.zero h)

/-- WINDOW_UPDATE, on the connection or a stream. -/
theorem Allows.handleWindowUpdateFrame :
    Ensures (Returns I R) (c.handleWindowUpdateFrame f) := by
  unfold Conn.handleWindowUpdateFrame
  split
  next e he =>
    apply ha.done
    exact keeps_windowUpdateError h ha.toKept
      (decodeWindowUpdatePayload_codes he)
  next e he => exact ha.fail h (decodeWindowUpdatePayload_codes he)
  · refine .ite ?_ (.ite (ha.fail h (by decide)) ?_)
    · split
      · exact ha.fail h (by decide)
      · exact ha.zero h
    · split
      · exact ha.zero h
      · refine .bind_any fun updated => ?_
        cases updated with
        | none =>
          exact ha.done (keeps_windowUpdateError h ha.toKept (by decide))
        | some s => exact ha.zero (sees_put h s)

theorem Allows.handlePingFrame :
    Ensures (Returns I R) (c.handlePingFrame f) := by
  unfold Conn.handlePingFrame
  split
  next e he => exact ha.fail h (decodePingPayload_codes e he)
  · exact ha.zero h

theorem Allows.handleGoawayFrame :
    Ensures (Returns I R) (c.handleGoawayFrame f) := by
  unfold Conn.handleGoawayFrame
  split
  next e he => exact ha.fail h (decodeGoawayPayload_codes e he)
  · exact ha.zero h

/-- One case per frame type. -/
theorem Allows.frameHandler
    (hblock : f.type = .headers → ∀ dependency src, decodeHeadersPayload f =
      .ok (dependency, src) →
      f.streamId ≤ c.pullMaxOpen → f.endHeaders = true →
      BlockAllowed R c.inputTable src) : Ensures (Returns I R)
      (c.frameHandler env f) := by
  unfold Conn.frameHandler
  cases htype : f.type with
  | data => exact ha.handleDataFrame h f
  | headers => exact ha.handleHeadersFrame h f (hblock htype)
  | priority => exact ha.handlePriorityFrame h f
  | rstStream => exact ha.handleRstStreamFrame h f
  | settings => exact ha.handleSettingsFrame h f
  | pushPromise => exact ha.fail h (by decide)
  | ping => exact ha.handlePingFrame h f
  | goaway => exact ha.handleGoawayFrame h f
  | windowUpdate => exact ha.handleWindowUpdateFrame h f
  | continuation => exact ha.fail h (by decide)
  | unknown type => exact ha.zero h

/-- CONTINUATION: the block is whole at its end. -/
theorem Allows.handleContinuationFrame (hblock : ∀ s, c.getStream f.streamId =
    some s →
      f.type = .continuation → f.endHeaders = true → s.state = .recvBody →
      BlockAllowed R c.inputTable (c.headersUnparsed.getD [] ++ f.payload)) :
    Ensures (Returns I R) (c.handleContinuationFrame env f) := by
  have hdefault : Sees I
      { c with readExpect := .default, headersUnparsed := none } :=
    ha.expect (show Expect.default ≠ .preface by decide) h
  refine .dite (fun _ => ha.fail h (by decide)) fun htype => ?_
  split
  · exact ha.fail h (by decide)
  next s hs =>
    refine .dite (fun _ => ha.fail h (by decide)) fun hstate => ?_
    refine .ite (.dite (fun hend => ?_) fun _ => ha.zero h) (ha.done ?_)
    · refine .dite (fun _ => ha.handleIncomingRequest hdefault _) fun _ => ?_
      have hbody : s.state = .recvBody := by tauto
      exact ha.handleTrailingHeaders hdefault
        (hblock s hs (not_not.1 htype) hend hbody)
    · exact keeps_sendRstStream ha.toKept h (by decide)

end

end Handlers

-- ==== answers

def PastPreface (_ : List ErrorFrame) (expect : Expect) (_ : ConnState) :
    Prop :=
  expect ≠ .preface

/-- The preface has been received. -/
abbrev Started : Conn → Prop := Sees PastPreface

/-- What a handler returns: zero or an error, but not that the input is too
short. The preface is not expected again. -/
structure Answered (r : Conn × Int) : Prop where
  started : Started r.1
  nonpos : r.2 ≤ 0
  ne : r.2 ≠ incomplete

theorem allows_pastPreface : Allows PastPreface
    fun code => code ≤ 0 ∧ code ≠ incomplete where
  send _ h := h
  shutdown _ h := h
  close h := h
  expect h _ := h
  code := by
    rintro code ⟨hlow, hhigh⟩
    refine ⟨hhigh, fun heq => ?_⟩
    rw [heq] at hlow
    exact absurd hlow (by decide)

/-- After the preface each frame is answered. -/
theorem answered_handleFrame {f : Frame} (h : Started c) :
    Ensures Answered (c.handleFrame env f) := by
  have hchar : invalidHeaderChar ≤ 0 ∧ invalidHeaderChar ≠ incomplete := by
    decide
  have hreturns : Ensures (Returns PastPreface fun code =>
      code ≤ 0 ∧ code ≠ incomplete) (c.handleFrame env f) := by
    unfold Conn.handleFrame
    split
    · exact allows_pastPreface.handleContinuationFrame h f fun _ _ _ _ _ =>
        .inl hchar
    all_goals
      exact allows_pastPreface.frameHandler h f fun _ _ _ _ _ _ => .inl hchar
  exact hreturns.imp fun _ h => ⟨h.1, h.2.1, h.2.2⟩

end H2o.Http2Conn
