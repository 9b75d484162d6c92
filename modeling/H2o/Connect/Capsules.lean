/-
The datagrams of CONNECT-UDP on the request stream (`lib/handler/connect.c`).

A capsule is a type, the length of its payload and the payload. What the client
sends is read from the chunk that has come or, if octets have been kept, from
the buffer it is appended to; what is left of an incomplete capsule is kept.
The integers are read by `ptls_decode_quicint`, whose failure is the one reason
why a reader here is short of input.

With RFC 9298 the payload begins with a context id, which is removed; the
payload of another context than 0 is dropped. The socket is open: otherwise
`udp_write_stream` does nothing.
-/
import H2o.Lib.Pieces
import H2o.Token

namespace H2o.Connect

open Lib List

-- ==== reading

/-- `ptls_decode_quicint`. -/
def decodeQuicint : Bytes → Except Unit (Nat × Bytes) :=
  uncons () fun b =>
    andThen (split () (2 ^ (b.toNat / 64) - 1)) fun bytes src =>
    .ok (bytes.foldl (fun v b => v * 256 + b.toNat) (b.toNat % 64), src)

/-- `udp_get_next_chunk`: the type and the payload, and what follows them. -/
def udpGetNextChunk : Bytes → Except Unit ((Nat × Bytes) × Bytes) :=
  andThen decodeQuicint fun chunkType =>
    andThen decodeQuicint fun chunkLength =>
    andThen (split () chunkLength) fun payload src =>
      .ok ((chunkType, payload), src)

/-- `udp_write_core`: what is sent. -/
def udpWriteCore (isDraft03 : Bool) (datagram : Bytes) : Option Bytes :=
  if isDraft03 then some datagram
  else
    match decodeQuicint datagram with
    | .ok (0, src) => some src
    | _ => none

/-- The body of the loop: a capsule of another type is skipped. -/
def writeChunk (isDraft03 : Bool) (sent : List Bytes) (chunk : Nat × Bytes) :
    Except Unit (List Bytes) :=
  .ok (if chunk.1 ≠ 0 then sent
    else sent ++ (udpWriteCore isDraft03 chunk.2).toList)

/-- The generator, as far as it matters here; `buf` is `udp.egress.buf`. -/
structure Egress where
  buf : Bytes
  sent : List Bytes
deriving DecidableEq

/-- `udp_do_write_stream`. -/
def udpDoWriteStream (isDraft03 : Bool) (s : Egress) (chunk : Bytes) :
    Egress :=
  let fromBuf := s.buf ≠ []
  let src := if fromBuf then s.buf ++ chunk else chunk
  let r := feed () udpGetNextChunk (writeChunk isDraft03) src.length s.sent src
  { buf :=
      if fromBuf then r.2.1 else if r.2.1 ≠ [] then s.buf ++ r.2.1 else s.buf
    sent := r.1 }

-- ==== capsules

/-- A capsule, with the octets of its integers. -/
structure Capsule where
  type : Nat
  payload : Bytes
  typeBytes : Bytes
  lengthBytes : Bytes
  type_read : decodeQuicint typeBytes = .ok (type, [])
  length_read : decodeQuicint lengthBytes = .ok (payload.length, [])

def Capsule.bytes (c : Capsule) : Bytes :=
  c.typeBytes ++ c.lengthBytes ++ c.payload

/-- The datagram in a capsule, if there is one. -/
def Capsule.datagram (isDraft03 : Bool) (c : Capsule) : Option Bytes :=
  if c.type ≠ 0 then none
  else if isDraft03 then some c.payload
  else
    match decodeQuicint c.payload with
    | .ok (0, datagram) => some datagram
    | _ => none

theorem stable_decodeQuicint : Stable () decodeQuicint :=
  .uncons fun _ => (stable_split _).andThen fun _ => stable_pure _

theorem stable_udpGetNextChunk : Stable () udpGetNextChunk :=
  stable_decodeQuicint.andThen fun _ => stable_decodeQuicint.andThen fun _ =>
    (stable_split _).andThen fun _ => stable_pure _

theorem progress_udpGetNextChunk : Progress udpGetNextChunk :=
  (progress_uncons fun _ => (stable_split _).andThen fun _ =>
    stable_pure _).andThen () fun _ =>
    stable_decodeQuicint.andThen fun _ => (stable_split _).andThen fun _ =>
      stable_pure _

theorem Capsule.read (c : Capsule) (more : Bytes) :
    udpGetNextChunk (c.bytes ++ more) = .ok ((c.type, c.payload), more) := by
  have htype := stable_decodeQuicint.ok (c.lengthBytes ++ (c.payload ++ more))
    c.type_read
  have hlength := stable_decodeQuicint.ok (c.payload ++ more) c.length_read
  simp [Capsule.bytes, udpGetNextChunk, andThen, htype, hlength, split]

-- ==== the stream

variable {isDraft03 : Bool}

/-- Everything that can be read is read. -/
def drain (isDraft03 : Bool) (sent : List Bytes) (src : Bytes) : Egress :=
  let r := feed () udpGetNextChunk (writeChunk isDraft03) src.length sent src
  ⟨r.2.1, r.1⟩

/-- No error but the lack of input. -/
theorem feed_error (n : Nat) (sent : List Bytes) (src : Bytes) :
    (feed () udpGetNextChunk (writeChunk isDraft03) n sent src).2.2 =
      none := by
  induction n generalizing sent src with
  | zero => rfl
  | succ n ih =>
    rw [feed]
    cases udpGetNextChunk src with
    | error e => rfl
    | ok r => exact ih _ r.2

theorem drain_append (sent : List Bytes) (src more : Bytes) :
    drain isDraft03 sent (src ++ more) =
      drain isDraft03 (drain isDraft03 sent src).sent
        ((drain isDraft03 sent src).buf ++ more) := by
  have hsplits : Splits fun sent src =>
      feed () udpGetNextChunk (writeChunk isDraft03) src.length sent src :=
    feed_splits stable_udpGetNextChunk progress_udpGetNextChunk rfl
  have hnone := @feed_error isDraft03 src.length sent src
  simp only [drain, hsplits sent src more]
  generalize feed () udpGetNextChunk (writeChunk isDraft03)
    src.length sent src = r at hnone ⊢
  obtain ⟨sent', rest, err⟩ := r
  obtain rfl : err = none := hnone
  rfl

theorem drain_of_read {sent : List Bytes} {src rest : Bytes} {c : Nat × Bytes}
    (h : udpGetNextChunk src = .ok (c, rest)) :
    drain isDraft03 sent src = drain isDraft03
      (if c.1 ≠ 0 then sent else sent ++ (udpWriteCore isDraft03 c.2).toList)
        rest := by
  have hlt := progress_udpGetNextChunk _ _ _ h
  obtain ⟨n, hn⟩ : ∃ n, src.length = n + 1 := ⟨src.length - 1, by omega⟩
  simp only [drain, hn, feed, h, writeChunk]
  rw [feed_eq_of_le progress_udpGetNextChunk rfl (by omega) (Nat.le_refl _)]

theorem drain_capsules (cs : List Capsule) (sent : List Bytes) {tail : Bytes}
    (htail : ∃ c : Capsule, tail <+: c.bytes ∧ tail ≠ c.bytes) :
    drain isDraft03 sent ((cs.map Capsule.bytes).flatten ++ tail) =
      ⟨tail, sent ++ cs.filterMap (Capsule.datagram isDraft03)⟩ := by
  induction cs generalizing sent with
  | nil =>
    obtain ⟨c, hbegin, hne⟩ := htail
    have hread := c.read []
    rw [append_nil] at hread
    rw [filterMap_nil, append_nil, map_nil, flatten_nil, nil_append, drain,
      feed_truncated stable_udpGetNextChunk hread hbegin hne]
  | cons c cs ih =>
    rw [map_cons, flatten_cons, append_assoc, drain_of_read (c.read _), ih,
      filterMap_cons]
    by_cases htype : c.type = 0
    · have hsent : udpWriteCore isDraft03 c.payload =
          c.datagram isDraft03 := by
        rw [Capsule.datagram, if_neg (not_not.2 htype)]
        rfl
      rw [if_neg (not_not.2 htype), hsent, append_assoc]
      cases c.datagram isDraft03 with
      | none => rfl
      | some d => rfl
    · rw [if_pos htype, Capsule.datagram, if_pos htype]

/-- A write takes what can be read of what there is. -/
theorem udpDoWriteStream_eq (s : Egress) (chunk : Bytes) :
    udpDoWriteStream isDraft03 s chunk =
      drain isDraft03 s.sent (s.buf ++ chunk) := by
  unfold udpDoWriteStream drain
  by_cases hbuf : s.buf = []
  · simp only [hbuf, ne_eq, not_true, if_false, nil_append]
    split
    next => rfl
    next hnil => rw [not_not.1 hnil]
  · simp only [if_pos hbuf]

/-- If nothing can be read of what is kept, the cuts do not matter. -/
theorem writes_eq_drain (pieces : List Bytes) {s : Egress}
    (hkept : drain isDraft03 s.sent s.buf = s) :
    pieces.foldl (udpDoWriteStream isDraft03) s =
      drain isDraft03 s.sent (s.buf ++ pieces.flatten) := by
  induction pieces generalizing s with
  | nil => rw [flatten_nil, append_nil, hkept, foldl_nil]
  | cons p pieces ih =>
    have hagain := @drain_append isDraft03 s.sent (s.buf ++ p) []
    rw [append_nil, append_nil] at hagain
    rw [foldl_cons, udpDoWriteStream_eq, flatten_cons, ← append_assoc,
      ih hagain.symm, drain_append _ (s.buf ++ p)]

/-- However a stream of capsules is cut, its datagrams are sent in their order,
and what is kept is the incomplete capsule at its end. -/
theorem writes_send_datagrams (isDraft03 : Bool) (cs : List Capsule)
    (tail : Bytes)
    (pieces : List Bytes)
    (htail : ∃ c : Capsule, tail <+: c.bytes ∧ tail ≠ c.bytes)
    (hpieces : pieces.flatten = (cs.map Capsule.bytes).flatten ++ tail) :
    pieces.foldl (udpDoWriteStream isDraft03) ⟨[], []⟩ =
      ⟨tail, cs.filterMap (Capsule.datagram isDraft03)⟩ := by
  rw [writes_eq_drain pieces rfl, nil_append, hpieces,
    drain_capsules cs [] htail, nil_append]

/-- A capsule with short integers. -/
def shortCapsule (type : Nat) (payload : Bytes)
    (h : decodeQuicint [UInt8.ofNat type] = .ok (type, []) ∧
      decodeQuicint [UInt8.ofNat payload.length] = .ok (payload.length, [])) :
    Capsule :=
  ⟨type, payload, _, _, h.1, h.2⟩

/-- A datagram, one of context 2, a capsule of type 1 and a part of another
one, octet by octet. -/
theorem writes_send_datagrams_octets :
    [[0], [3], [0], [7], [8], [0], [2], [2], [9], [1], [0], [0x40], [0]].foldl
      (udpDoWriteStream false) ⟨[], []⟩ = ⟨[0x40, 0], [[7, 8]]⟩ :=
  writes_send_datagrams false [shortCapsule 0 [0, 7, 8] (by decide),
    shortCapsule 0 [2, 9] (by decide), shortCapsule 1 [] (by decide)]
      [0x40, 0] _
    ⟨⟨0, [], [0x40, 0], [0], by decide, by decide⟩, by decide⟩ rfl

/-- Whatever the octets are, capsules or not, what is sent and what is kept do
not depend on the cuts. -/
theorem writes_eq_one_write (isDraft03 : Bool) (pieces : List Bytes) :
    pieces.foldl (udpDoWriteStream isDraft03) ⟨[], []⟩ =
      udpDoWriteStream isDraft03 ⟨[], []⟩ pieces.flatten := by
  rw [writes_eq_drain pieces rfl, udpDoWriteStream_eq]

end H2o.Connect
