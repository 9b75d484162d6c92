/-
The header blocks an HTTP/2 client reads.

`completedBlock` is the block that a frame completes, as the connection and
the frame have it. Reading a HEADERS or CONTINUATION frame either hands that
block to `handleBlock`, or does nothing that a response depends on.
-/
import H2o.Http2Client.Proofs.Turn

namespace H2o.Http2Client

open Http2

/-- The block that a frame completes: its stream, the block, and whether it
ends the stream. -/
def completedBlock (c : Conn) (f : Frame) : Option (Nat × Bytes × Bool) :=
  match c.readFrame with
  | .expectContinuationOfHeaders eos =>
    if f.type = .continuation ∧ f.endHeaders = true then
      some (f.streamId, c.headersUnparsed ++ f.payload, eos)
    else none
  | _ =>
    if f.type = .headers ∧ f.endHeaders = true then
      match decodeHeadersPayload f with
      | .ok (_, headers) => some (f.streamId, headers, f.endStream)
      | .error _ => none
    else none

/-- Nothing happens but that another frame is expected. -/
abbrev FrameQuiet : Conn → Conn → Prop :=
  Changes Kept.exceptReading Stream.core fun _ => false

section

variable {c c' : Conn} {f : Frame} {ans : Answers} {e : Option ConnError}

theorem FrameQuiet.trace_eq (h : FrameQuiet c c') : c'.trace = c.trace := by
  obtain ⟨ls, hls, hlab⟩ := h.trace
  cases ls with
  | nil => exact hls
  | cons l ls => exact absurd (hlab l List.mem_cons_self) (by simp)

theorem FrameQuiet.ids (h : FrameQuiet c c') : IdQuiet c c' :=
  h.mono (fun _ _ h => (congrArg Kept.maxOpenStreamId h :))
    (fun _ _ => congrArg Prod.fst) (fun _ _ => rfl)

theorem frameQuiet_reading (readFrame : ReadFrame) (headersUnparsed : Bytes)
    (c : Conn) : FrameQuiet c { c with readFrame, headersUnparsed } :=
  { (Changes.refl c : FrameQuiet c c) with }

/-- A frame of a header block that is read. -/
inductive ReadsFrame (c : Conn) (f : Frame) (ans : Answers) :
    Conn → Option ConnError → Prop
  | kept {c' : Conn} {e : Option ConnError} (h : FrameQuiet c c') :
    ReadsFrame c f ans c' e
  | completes {c₁ c' : Conn} {e : Option ConnError} {id : Nat} {src : Bytes}
      {eos : Bool} (hblock : completedBlock c f = some (id, src, eos))
      (hquiet : FrameQuiet c c₁) (htable : c₁.inTable = c.inTable)
      (h : handleBlock c₁ id src eos ans = .ok (c', e)) :
      ReadsFrame c f ans c' e

theorem readsFrame_headers (hread : c.readFrame = .expectDefault)
    (htype : f.type = .headers)
    (h : handleHeadersFrame c f ans = .ok (c', e)) :
    ReadsFrame c f ans c' e := by
  have hset : FrameQuiet c (c.untimed f.streamId) :=
    .setStream (by intro s; exact ⟨rfl, rfl⟩) _ c
  cases headersRead h with
  | rejected => exact .kept (.refl c)
  | notLast => exact .kept hset
  | begun => exact .kept (hset.trans (frameQuiet_reading _ _ _))
  | complete hdecode hend h =>
    refine .completes ?_ hset rfl h
    simp [completedBlock, hread, htype, hdecode, hend]

theorem readsFrame_continuation {eos : Bool}
    (hread : c.readFrame = .expectContinuationOfHeaders eos)
    (h : expectContinuationOfHeaders c f eos ans = .ok (c', e)) :
    ReadsFrame c f ans c' e := by
  cases continuationRead h with
  | rejected => exact .kept (.refl c)
  | continues => exact .kept (frameQuiet_reading c.readFrame _ c)
  | complete htype hend h =>
    refine .completes ?_ (frameQuiet_reading .expectDefault [] c) rfl h
    simp [completedBlock, hread, htype, hend]

end

end H2o.Http2Client
