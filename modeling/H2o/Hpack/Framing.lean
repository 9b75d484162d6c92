/-
The frames of a header block: `fixup_frame_headers` (`lib/http2/hpack.c`) and
`h2o_http2_encode_frame_header` (`lib/http2/frame.c`).

The block is written behind the space for one frame header. What does not fit
into the first frame goes to CONTINUATION frames, whose headers are inserted
into the buffer one after another.
-/
import Mathlib.Tactic
import H2o.Token

namespace H2o.Framing

open List

/-- `H2O_HTTP2_FRAME_HEADER_SIZE`. -/
def frameHeaderSize : Nat := 9

/-- `H2O_HTTP2_FRAME_TYPE_CONTINUATION`. -/
def frameTypeContinuation : UInt8 := 9

/-- `H2O_HTTP2_FRAME_FLAG_END_HEADERS`. -/
def frameFlagEndHeaders : UInt8 := 4

/-- `h2o_http2_encode24u`. -/
def encode24u (n : Nat) : Bytes :=
  [UInt8.ofNat (n >>> 16), UInt8.ofNat (n >>> 8), UInt8.ofNat n]

/-- `h2o_http2_encode32u`. -/
def encode32u (n : UInt32) : Bytes :=
  [(n >>> 24).toUInt8, (n >>> 16).toUInt8, (n >>> 8).toUInt8, n.toUInt8]

/-- The octets of a frame header. -/
def frameHeader (length : Nat) (type flags : UInt8) (streamId : UInt32) :
    Bytes :=
  encode24u length ++ [type, flags] ++ encode32u streamId

/-- `h2o_http2_encode_frame_header` at an offset of a buffer; `none` is
`h2o_fatal`. -/
def encodeFrameHeader (buf : Bytes) (off length : Nat) (type flags : UInt8)
    (streamId : UInt32) : Option Bytes :=
  if length > 0xffffff then none
  else some (buf.take off ++ frameHeader length type flags streamId ++
    buf.drop (off + frameHeaderSize))

/-- The loop of `fixup_frame_headers`, for at most `n` CONTINUATION frames. -/
def fixupLoop (streamId : UInt32) (maxFrameSize : Nat) :
    Nat → Bytes → Nat → Option Bytes
  | 0, _, _ => none
  | n + 1, buf, off =>
    let left := buf.length - off
    -- the space `memmove` opens still has the octets moved, or what lies
    -- behind them
    let buf := (buf ++ replicate frameHeaderSize 0).take
      (off + frameHeaderSize) ++ buf.drop off
    if left ≤ maxFrameSize then
      encodeFrameHeader buf off left frameTypeContinuation frameFlagEndHeaders
        streamId
    else do
      let buf ← encodeFrameHeader buf off maxFrameSize frameTypeContinuation 0
          streamId
      fixupLoop streamId maxFrameSize n buf
        (off + (frameHeaderSize + maxFrameSize))

/-- `fixup_frame_headers`. -/
def fixupFrameHeaders (buf : Bytes) (startAt : Nat) (type : UInt8)
    (streamId : UInt32) (maxFrameSize : Nat) (flags : UInt8) : Option Bytes :=
  let payloadSize := buf.length - startAt - frameHeaderSize
  if payloadSize ≤ maxFrameSize then
    encodeFrameHeader buf startAt payloadSize type
      (frameFlagEndHeaders ||| flags) streamId
  else do
    let buf ← encodeFrameHeader buf startAt maxFrameSize type flags streamId
    fixupLoop streamId maxFrameSize payloadSize buf
      (startAt + (frameHeaderSize + maxFrameSize))

-- ==== frames

/-- A frame with its payload. -/
def frame (streamId : UInt32) (type flags : UInt8) (p : Bytes) : Bytes :=
  frameHeader p.length type flags streamId ++ p

/-- The frames of some payloads: the first has the type and the flags given,
the others are CONTINUATION frames, and the last has END_HEADERS too. -/
def frames (streamId : UInt32) : UInt8 → UInt8 → List Bytes → Bytes
  | _, _, [] => []
  | type, flags, [p] => frame streamId type (frameFlagEndHeaders ||| flags) p
  | type, flags, p :: ps =>
    frame streamId type flags p ++ frames streamId frameTypeContinuation 0 ps

/-- A block cut into payloads of at most `n` octets. -/
structure Cut (n : Nat) (block : Bytes) (ps : List Bytes) : Prop where
  ne_nil : ps ≠ []
  flatten : ps.flatten = block
  length_le : ∀ p ∈ ps, p.length ≤ n

variable {n : Nat} {type flags : UInt8} {streamId : UInt32}
  {pre space block : Bytes} {ps : List Bytes}

theorem Cut.single (h : block.length ≤ n) : Cut n block [block] :=
  ⟨cons_ne_nil _ _, flatten_singleton, fun _ hp => mem_singleton.mp hp ▸ h⟩

theorem Cut.cons (h : Cut n (block.drop n) ps) :
    Cut n block (block.take n :: ps) where
  ne_nil := cons_ne_nil _ _
  flatten := by rw [flatten_cons, h.flatten, take_append_drop]
  length_le := forall_mem_cons.mpr ⟨length_take_le _ _, h.length_le⟩

theorem frames_cons (h : ps ≠ []) (p : Bytes) :
    frames streamId type flags (p :: ps) =
      frame streamId type flags p ++ frames streamId frameTypeContinuation 0
        ps := by
  cases ps with
  | nil => exact absurd rfl h
  | cons => rfl

/-- A header is written over the space left for it. -/
theorem encodeFrameHeader_of_space {length : Nat}
    (hspace : space.length = frameHeaderSize) (hlength : length ≤ 0xffffff) :
    encodeFrameHeader (pre ++ (space ++ block)) pre.length length type flags
      streamId =
      some (pre ++ (frameHeader length type flags streamId ++ block)) := by
  rw [encodeFrameHeader, if_neg (by omega), take_left, drop_length_add_append,
    ← hspace, drop_left, append_assoc]

/-- One frame, or a first one and what the loop makes of the rest. -/
theorem frames_of_space {loop : Bytes → Option Bytes}
    (hspace : space.length = frameHeaderSize)
    (hfit : n ≤ 0xffffff ∨ block.length ≤ 0xffffff)
    (hloop : n < block.length → ∀ pre' : Bytes,
      pre'.length = pre.length + (frameHeaderSize + n) →
      ∃ ps, Cut n (block.drop n) ps ∧
        loop (pre' ++ block.drop n) =
          some (pre' ++ frames streamId frameTypeContinuation 0 ps)) :
    ∃ ps, Cut n block ps ∧
      (if block.length ≤ n then encodeFrameHeader (pre ++ (space ++ block))
        pre.length
          block.length type (frameFlagEndHeaders ||| flags) streamId
        else encodeFrameHeader (pre ++ (space ++ block))
          pre.length n type flags streamId >>= loop) =
        some (pre ++ frames streamId type flags ps) := by
  split
  next hle =>
    exact ⟨[block], .single hle, encodeFrameHeader_of_space hspace (by omega)⟩
  next hlt =>
    have htake : (block.take n).length = n := length_take_of_le (by omega)
    obtain ⟨ps, hcut, hrest⟩ :=
      hloop (by omega) (pre ++ frame streamId type flags (block.take n)) (by
      rw [length_append, frame, length_append, htake]
      rfl)
    refine ⟨_, hcut.cons, ?_⟩
    rw [encodeFrameHeader_of_space hspace (by omega), frames_cons hcut.ne_nil,
      ← append_assoc pre (frame _ _ _ _), ← hrest, frame, htake, append_assoc,
        append_assoc,
      take_append_drop]
    rfl

/-- The loop inserts the headers of the frames that follow. -/
theorem fixupLoop_frames {k : Nat} (hn : 0 < n)
    (hfit : n ≤ 0xffffff ∨ block.length ≤ 0xffffff) (hk : block.length < k) :
    ∃ ps, Cut n block ps ∧ fixupLoop streamId n k (pre ++ block) pre.length =
      some (pre ++ frames streamId frameTypeContinuation 0 ps) := by
  induction k generalizing pre block with
  | zero => exact absurd hk (Nat.not_lt_zero _)
  | succ k ih =>
    have hspace :
        ((block ++ replicate frameHeaderSize 0).take frameHeaderSize).length =
        frameHeaderSize := by simp
    have hleft : (pre ++ block).length - pre.length = block.length := by simp
    rw [fixupLoop]
    simp only [hleft, append_assoc pre block, take_length_add_append,
      drop_left]
    rw [append_assoc]
    refine frames_of_space hspace hfit fun hlt pre' hpre => ?_
    have hdrop := length_drop (i := n) (l := block)
    exact hpre ▸ ih (by omega) (by omega)

/-- A block behind the space for a frame header becomes frames with payloads of
at most the maximum, if the lengths fit into 24 bits. -/
theorem fixupFrameHeaders_frames (pre space block : Bytes) (type flags : UInt8)
    (streamId : UInt32) (maxFrameSize : Nat)
    (hspace : space.length = frameHeaderSize)
    (hmax : 0 < maxFrameSize)
    (hfit : maxFrameSize ≤ 0xffffff ∨ block.length ≤ 0xffffff) :
    ∃ ps, Cut maxFrameSize block ps ∧
      fixupFrameHeaders (pre ++ (space ++ block)) pre.length type streamId
        maxFrameSize flags =
        some (pre ++ frames streamId type flags ps) := by
  have hsize : (pre ++ (space ++ block)).length - pre.length -
      frameHeaderSize = block.length := by
    simp only [length_append]
    omega
  rw [fixupFrameHeaders]
  simp only [hsize]
  refine frames_of_space hspace hfit fun hlt pre' hpre => ?_
  have hdrop := length_drop (i := maxFrameSize) (l := block)
  exact hpre ▸ fixupLoop_frames hmax (by omega) (by omega)

theorem fixupFrameHeaders_two_and_one : ∃ ps, Cut 2 (ascii "abc") ps ∧
      fixupFrameHeaders ([] ++ (replicate 9 0 ++ ascii "abc")) 0 1 5 2 1 =
        some ([] ++ frames 5 1 1 ps) :=
  fixupFrameHeaders_frames [] (replicate 9 0) (ascii "abc")
    1 1 5 2 rfl (by decide)
    (.inl (by decide))

/-- The length of a frame has 24 bits. A block of 2^24 octets that the maximum
allows in one frame ends the process. -/
theorem fixupFrameHeaders_fatal : ∃ block : Bytes,
      fixupFrameHeaders (replicate frameHeaderSize 0 ++ block) 0 1 1 (2 ^ 24)
        0 = none := by
  obtain ⟨block, hblock⟩ : ∃ block : Bytes, block.length = 2 ^ 24 :=
    ⟨replicate (2 ^ 24) 0, length_replicate⟩
  refine ⟨block, ?_⟩
  simp [fixupFrameHeaders, encodeFrameHeader, hblock]

end H2o.Framing
