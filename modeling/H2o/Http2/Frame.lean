/-
Frames of HTTP/2 (`lib/http2/frame.c`, `include/h2o/http2_common.h`): what a
received frame carries, how its payload is decoded, the peer's settings, and
the flow-control windows.

A frame is taken as `h2o_http2_decode_frame` delivers it, its length being the
length of the payload. The frames that are sent (`OutFrame`) are kept as
values; their octets do not matter here.
-/
import H2o.Token

namespace H2o.Http2

-- ==== errors

/-- `H2O_HTTP2_ERROR_*`. -/
inductive ErrorCode where
  | none
  | protocol
  | internal
  | flowControl
  | frameSize
  | refusedStream
  | cancel
  | compression
  | protocolCloseImmediately
deriving DecidableEq

/-- An error of the connection: the code and `*err_desc`. -/
structure ConnError where
  code : ErrorCode
  desc : Option String
deriving DecidableEq

-- ==== frames

inductive FrameType where
  | data
  | headers
  | priority
  | rstStream
  | settings
  | pushPromise
  | ping
  | goaway
  | windowUpdate
  | continuation
  | unknown (type : UInt8)
deriving DecidableEq

/-- `h2o_http2_frame_t`. -/
structure Frame where
  type : FrameType
  flags : UInt8
  streamId : Nat
  payload : Bytes
deriving DecidableEq

namespace Frame

def endStream (f : Frame) : Bool := f.flags &&& 0x1 != 0
def ack (f : Frame) : Bool := f.flags &&& 0x1 != 0
def endHeaders (f : Frame) : Bool := f.flags &&& 0x4 != 0
def padded (f : Frame) : Bool := f.flags &&& 0x8 != 0
def hasPriority (f : Frame) : Bool := f.flags &&& 0x20 != 0

end Frame

/-- The check of `h2o_http2_decode_frame` on the length of a frame. -/
def decodeFrame (f : Frame) (maxFrameSize : Nat) : Except ConnError Frame :=
  if f.payload.length > maxFrameSize then .error ⟨.frameSize, none⟩ else .ok f

/-- `h2o_http2_decode16u`. -/
def decode16u (a b : UInt8) : UInt16 := a.toUInt16 <<< 8 ||| b.toUInt16

/-- `h2o_http2_decode32u`. -/
def decode32u (a b c d : UInt8) : UInt32 :=
  a.toUInt32 <<< 24 ||| b.toUInt32 <<< 16 ||| c.toUInt32 <<< 8 ||| d.toUInt32

/-- `h2o_http2_decode_data_payload`: the payload without its padding. -/
def decodeDataPayload (f : Frame) : Except ConnError Bytes :=
  if f.streamId = 0 then
    .error ⟨.protocol, "invalid stream id in DATA frame"⟩
  else if f.padded then
    match f.payload with
    | [] => .error ⟨.protocol, "invalid DATA frame"⟩
    | paddingLength :: data =>
      if f.payload.length < 1 + paddingLength.toNat then
        .error ⟨.protocol, "invalid DATA frame"⟩
      else .ok (data.take (data.length - paddingLength.toNat))
  else .ok f.payload

/-- The padding of a HEADERS frame, taken off. -/
def headersPadding (f : Frame) : Except ConnError Bytes :=
  if f.padded then
    match f.payload with
    | [] => .error ⟨.protocol, "invalid HEADERS frame"⟩
    | padlen :: src =>
      if src.length < padlen.toNat then
        .error ⟨.protocol, "invalid HEADERS frame"⟩
      else .ok (src.take (src.length - padlen.toNat))
  else .ok f.payload

/-- `priority->dependency`. -/
def decodeDependency (a b c d : UInt8) : Nat :=
  (decode32u a b c d &&& 0x7fffffff).toNat

/-- `h2o_http2_decode_headers_payload`: the dependency and the fragment of the
header block. -/
def decodeHeadersPayload (f : Frame) : Except ConnError (Nat × Bytes) :=
  if f.streamId = 0 then
    .error ⟨.protocol, "invalid stream id in HEADERS frame"⟩
  else
    match headersPadding f with
    | .error e => .error e
    | .ok src =>
      if f.hasPriority then
        match src with
        | a :: b :: c :: d :: _ :: headers =>
          .ok (decodeDependency a b c d, headers)
        | _ => .error ⟨.protocol, none⟩
      else .ok (0, src)

/-- `h2o_http2_decode_priority_payload`: the dependency. -/
def decodePriorityPayload (f : Frame) : Except ConnError Nat :=
  if f.streamId = 0 then
    .error ⟨.protocol, "invalid stream id in PRIORITY frame"⟩
  else
    match f.payload with
    | [a, b, c, d, _] => .ok (decodeDependency a b c d)
    | _ => .error ⟨.frameSize, "invalid PRIORITY frame"⟩

/-- `h2o_http2_decode_rst_stream_payload`: the error code. -/
def decodeRstStreamPayload (f : Frame) : Except ConnError UInt32 :=
  if f.streamId = 0 then
    .error ⟨.protocol, "invalid stream id in RST_STREAM frame"⟩
  else
    match f.payload with
    | [a, b, c, d] => .ok (decode32u a b c d)
    | _ => .error ⟨.frameSize, "invalid RST_STREAM frame"⟩

/-- `h2o_http2_decode_ping_payload`. -/
def decodePingPayload (f : Frame) : Except ConnError Bytes :=
  if f.streamId ≠ 0 then .error ⟨.protocol, "invalid PING frame"⟩
  else if f.payload.length ≠ 8 then
    .error ⟨.frameSize, "invalid PING frame"⟩
  else .ok f.payload

/-- `h2o_http2_decode_goaway_payload`: the last stream id. -/
def decodeGoawayPayload (f : Frame) : Except ConnError Nat :=
  if f.streamId ≠ 0 then
    .error ⟨.protocol, "invalid stream id in GOAWAY frame"⟩
  else
    match f.payload with
    | a :: b :: c :: d :: _ :: _ :: _ :: _ :: _ =>
      .ok (decode32u a b c d &&& 0x7fffffff).toNat
    | _ => .error ⟨.frameSize, "invalid GOAWAY frame"⟩

/-- `h2o_http2_decode_window_update_payload`: the increment, or the error and
whether it is one of the stream. -/
def decodeWindowUpdatePayload (f : Frame) : Except (ConnError × Bool) Nat :=
  match f.payload with
  | [a, b, c, d] =>
    let increment := (decode32u a b c d &&& 0x7fffffff).toNat
    if increment = 0 then
      .error (⟨.protocol, "invalid WINDOW_UPDATE frame"⟩, f.streamId != 0)
    else .ok increment
  | _ => .error (⟨.frameSize, "invalid WINDOW_UPDATE frame"⟩, false)

-- ==== settings

/-- `h2o_http2_settings_t`. -/
structure Settings where
  headerTableSize : UInt32
  enablePush : UInt32
  maxConcurrentStreams : UInt32
  initialWindowSize : UInt32
  maxFrameSize : UInt32
deriving DecidableEq

/-- `H2O_HTTP2_SETTINGS_DEFAULT`. -/
def Settings.default : Settings := ⟨4096, 1, 0xffffffff, 65535, 16384⟩

/-- One parameter of `h2o_http2_update_peer_settings`. -/
def Settings.set (s : Settings) (identifier : UInt16) (value : UInt32) :
    Except ConnError Settings :=
  match identifier with
  | 1 => .ok { s with headerTableSize := value }
  | 2 =>
    if value ≤ 1 then .ok { s with enablePush := value }
    else .error ⟨.protocol, "invalid SETTINGS frame"⟩
  | 3 => .ok { s with maxConcurrentStreams := value }
  | 4 =>
    if value ≤ 0x7fffffff then .ok { s with initialWindowSize := value }
    else .error ⟨.flowControl, "invalid SETTINGS frame"⟩
  | 5 =>
    if 16384 ≤ value ∧ value ≤ 16777215 then
      .ok { s with maxFrameSize := value }
    else .error ⟨.protocol, "invalid SETTINGS frame"⟩
  -- ignore unknown (5.5)
  | _ => .ok s

/-- `h2o_http2_update_peer_settings`. The parameters before one that is
invalid stay set. -/
def updatePeerSettings (s : Settings) : Bytes → Settings × Option ConnError
  | a :: b :: c :: d :: e :: f :: src =>
    match s.set (decode16u a b) (decode32u c d e f) with
    | .error err => (s, some err)
    | .ok s => updatePeerSettings s src
  | [] => (s, none)
  | _ => (s, some ⟨.frameSize, none⟩)

-- ==== windows

def int32Max : Nat := 0x7fffffff

/-- `h2o_http2_window_update`. `none`: the window would overflow, and stays as
it is. -/
def windowUpdate (avail delta : Int) : Option Int :=
  if avail + delta > int32Max then none else some (avail + delta)

-- ==== frames that are sent

inductive OutFrame where
  /-- The client's preface with its SETTINGS frame. -/
  | preface (initialWindowSize : Nat)
  | settingsAck
  /-- A HEADERS frame and the CONTINUATION frames after it. -/
  | headers (streamId : Nat) (block : Bytes) (endStream : Bool)
  | data (streamId : Nat) (payload : Bytes) (endStream : Bool)
  | rstStream (streamId : Nat) (code : ErrorCode)
  | ping (payload : Bytes)
  | goaway (error : ConnError)
  | windowUpdate (streamId : Nat) (increment : Int)
deriving DecidableEq

/-- A frame that carries neither data nor credit. -/
def OutFrame.isControl : OutFrame → Bool
  | data .. => false
  | windowUpdate .. => false
  | _ => true

end H2o.Http2
