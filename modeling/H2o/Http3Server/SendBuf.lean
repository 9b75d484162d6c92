/-
The send buffer of a response over HTTP/3 (`lib/http3/server.c`).

# Vectors

`sendbuf.vecs` is what has been submitted and not acknowledged; the first
`off_within_first_vec` octets of the first vector are. A vector is owned by the
stream, or by the request (`immutable`), or refers to memory that may change:
`data_frame_header_buf`, which every DATA frame uses, and the memory of the
generator, which is released when the generator is asked to proceed. `turn`
counts those calls, and reading what an earlier turn provided is a fault. A
vector with a callback of its own is read when it is sent for the first time;
the callback may fail.

# The transport

`acked` octets have been shifted out, and `emitted` is the highest offset that
has been asked for. Offsets given to `on_send_emit` are relative to `acked`.
`generatorTurn` says that the generator may send, and `blocked` that its first
`do_send` waits for SETTINGS. Statistics (`bytes_sent`) are not modelled.
-/
import H2o.Http3Server.Flows
import H2o.Lib.Segments

namespace H2o.Http3Server

open Lib

-- ==== vectors

/-- `h2o_sendvec_t`, by the memory it refers to. -/
inductive Vec where
  /-- `self_allocated_vec_callbacks`. -/
  | selfAllocated (bytes : Bytes)
  /-- `immutable_vec_callbacks`. -/
  | immutable (bytes : Bytes)
  /-- A raw vector, into `data_frame_header_buf`. -/
  | headerBuf (len : Nat)
  /-- A raw vector, into memory of the generator. -/
  | generator (turn : Nat) (bytes : Bytes)
  /-- A vector with another `read_`. -/
  | pull (turn : Nat) (bytes : Bytes) (fails : Bool)
deriving DecidableEq

def Vec.len : Vec → Nat
  | .selfAllocated bytes | .immutable bytes | .generator _ bytes
  | .pull _ bytes _ => bytes.length
  | .headerBuf len => len

/-- What a generator submits. -/
inductive Buf where
  | raw (bytes : Bytes)
  | pull (bytes : Bytes) (fails : Bool)
deriving DecidableEq

def Buf.bytes : Buf → Bytes
  | .raw bytes | .pull bytes _ => bytes

def Buf.toVec (turn : Nat) : Buf → Vec
  | .raw bytes => .generator turn bytes
  | .pull bytes fails => .pull turn bytes fails

/-- `h2o_send_state_t`. -/
inductive SendState where
  | inProgress
  | final
  | error
deriving DecidableEq

/-- `ptls_encode_quicint`. -/
def encodeQuicint (v : Nat) : Bytes :=
  let bytes (n : Nat) : Bytes := (List.range n).map fun i =>
    UInt8.ofNat (v / 256 ^ (n - 1 - i))
  let tagged (tag : UInt8) : Bytes → Bytes
    | [] => []
    | b :: bs => (tag ||| b) :: bs
  if v ≤ 63 then bytes 1
  else if v ≤ 16383 then tagged 0x40 (bytes 2)
  else if v ≤ 1073741823 then tagged 0x80 (bytes 4)
  else tagged 0xc0 (bytes 8)

/-- What `flatten_data_frame_header` writes. -/
def dataFrameHeader (payloadSize : Nat) : Bytes :=
  0 :: encodeQuicint payloadSize

-- ==== state

/-- `sendbuf` of a stream, and what goes with it. -/
structure SendBuf where
  state : StreamState
  vecs : List Vec
  offWithinFirstVec : Nat
  minIndexToAddref : Nat
  finalSize : Nat
  dataFrameHeaderBuf : Bytes
  proceedRequested : Bool
  proceedWhileSending : Bool
  sendOpen : Bool
  turn : Nat
  generatorTurn : Bool
  blocked : Bool
  acked : Nat
  emitted : Nat
deriving DecidableEq

def SendBuf.init : SendBuf where
  state := .recvBodyBeforeBlock
  vecs := []
  offWithinFirstVec := 0
  minIndexToAddref := 0
  finalSize := 0
  dataFrameHeaderBuf := List.replicate 9 0
  proceedRequested := false
  proceedWhileSending := false
  sendOpen := true
  turn := 0
  generatorTurn := true
  blocked := false
  acked := 0
  emitted := 0

/-- What can go wrong. -/
inductive SendFault where
  | assertion
  /-- Memory of the generator is read after it was released. -/
  | released
  /-- The loop of `retain_sendvecs` runs past the end. -/
  | outOfBounds
deriving DecidableEq

/-- May `on_send_emit` and `on_send_shift` be called? -/
def SendBuf.sending (s : SendBuf) : Bool :=
  StreamState.recvBodyBeforeBlock.rank ≤ s.state.rank ∧
    s.state.rank ≤ StreamState.sendBody.rank

-- ==== submission

/-- `write_response`. -/
def SendBuf.writeResponse (s : SendBuf) (headers : Bytes) : SendBuf :=
  { s with
    vecs := s.vecs ++ [.immutable headers]
    finalSize := s.finalSize + headers.length }

/-- The vectors of a `do_send` that are not empty. -/
def nonEmpty (bufs : List Buf) : List Buf :=
  bufs.filter fun buf => buf.bytes.length ≠ 0

def payloadSize (bufs : List Buf) : Nat :=
  (bufs.map fun buf => buf.bytes.length).sum

/-- The vectors, behind the header of a DATA frame. -/
def SendBuf.pushData (s : SendBuf) (bufs : List Buf) : SendBuf :=
  let header := dataFrameHeader (payloadSize bufs)
  { s with
    dataFrameHeaderBuf := header
    vecs := s.vecs ++ .headerBuf header.length :: (nonEmpty bufs).map
      (Buf.toVec s.turn)
    finalSize := s.finalSize + (header.length + payloadSize bufs) }

/-- `shutdown_by_generator`. -/
def SendBuf.shutdownByGenerator (s : SendBuf) : SendBuf :=
  { s with
    sendOpen := false
    state := if s.vecs = [] then .closeWait else s.state }

/-- `do_send`, after the headers. -/
def SendBuf.sendBody (s : SendBuf) (emptyPayloadAllowed : Bool)
    (bufs : List Buf) (sendState : SendState) : Except SendFault SendBuf :=
  if payloadSize bufs = 0 ∧ emptyPayloadAllowed = false then .error .assertion
  else
    let s := if payloadSize bufs = 0 then s else s.pushData bufs
    .ok (if sendState = .inProgress then s else s.shutdownByGenerator)

/-- `do_send`. `waits` is that the response opens a tunnel for datagrams and
SETTINGS have not been received; then `finalize_do_send_setup_udp_tunnel`
returns zero, unless the response ends here. -/
def SendBuf.doSend (s : SendBuf) (headers : Bytes) (bufs : List Buf)
    (sendState : SendState) (waits : Bool) : Except SendFault SendBuf :=
  let emptyPayloadAllowed :=
    decide (s.state = .sendHeaders ∨ sendState ≠ .inProgress)
  let s := { s with proceedRequested := false }
  match s.state with
  | .sendHeaders =>
    if waits ∧ sendState = .inProgress then .ok { s with blocked := true }
    else
      { s.writeResponse headers with
        blocked := false
        state := .sendBody }.sendBody emptyPayloadAllowed bufs sendState
  | .sendBody =>
    if s.sendOpen then s.sendBody emptyPayloadAllowed bufs sendState
    else .error .assertion
  | .closeWait => .ok s
  | _ => .error .assertion

-- ==== emission

/-- A vector in raw form; `none` if its callback fails. -/
def Vec.toRaw (turn : Nat) : Vec → Except SendFault (Option Vec)
  | .pull t bytes fails =>
    if t ≠ turn then .error .released
    else if fails then .ok none
    else .ok (some (.selfAllocated bytes))
  | v => .ok (some v)

/-- The octets of a vector in raw form. -/
def Vec.read (headerBuf : Bytes) (turn : Nat) : Vec → Except SendFault Bytes
  | .selfAllocated bytes | .immutable bytes => .ok bytes
  | .headerBuf len => .ok (headerBuf.take len)
  | .generator t bytes => if t ≠ turn then .error .released else .ok bytes
  | .pull .. => .error .assertion

/-- What the loop of `on_send_emit` gives: the vectors, which may have been
read, the octets, and whether the end was reached; `none` if a callback
failed. -/
abbrev Written := Option (List Vec × Bytes × Bool)

/-- The loop of `on_send_emit`, from the vector where it begins. -/
def writeVecs (headerBuf : Bytes) (turn : Nat) :
    List Vec → Nat → Nat → Except SendFault Written
  | [], _, _ => .error .assertion
  | v :: vs, off, len =>
    match v.toRaw turn with
    | .error fault => .error fault
    | .ok none => .ok none
    | .ok (some v') =>
      match v'.read headerBuf turn with
      | .error fault => .error fault
      | .ok bytes =>
        let sz := min (v.len - off) len
        let dst := (bytes.drop off).take sz
        if off + sz = v.len then
          if vs = [] then .ok (some ([v'], dst, true))
          else if len - sz = 0 then .ok (some (v' :: vs, dst, false))
          else
            match writeVecs headerBuf turn vs 0 (len - sz) with
            | .error fault => .error fault
            | .ok none => .ok none
            | .ok (some (vs', dst', all)) =>
              .ok (some (v' :: vs', dst ++ dst', all))
        else .ok (some (v' :: vs, dst, false))

/-- Does the stream own the memory, or the request? -/
def Vec.owned : Vec → Bool
  | .selfAllocated _ | .immutable _ => true
  | .headerBuf _ | .generator .. | .pull .. => false

/-- A vector whose octets from `off` on are retained. -/
def Vec.retain (headerBuf : Bytes) (turn off : Nat) (v : Vec) :
    Except SendFault Vec :=
  if v.owned then .ok v
  else (v.read headerBuf turn).map fun bytes => .selfAllocated (bytes.drop off)

def retainAll (headerBuf : Bytes) (turn : Nat) :
    List Vec → Except SendFault (List Vec)
  | [] => .ok []
  | v :: vs =>
    match v.retain headerBuf turn 0 with
    | .error fault => .error fault
    | .ok v' => (retainAll headerBuf turn vs).map fun vs' => v' :: vs'

/-- The vectors from `min_index_to_addref` on have been retained. -/
def SendBuf.setRetained (s : SendBuf) (off : Nat) (vecs : List Vec) :
    SendBuf :=
  { s with
    vecs := s.vecs.take s.minIndexToAddref ++ vecs
    offWithinFirstVec := off
    minIndexToAddref := s.vecs.length }

/-- `retain_sendvecs`. -/
def SendBuf.retainSendvecs (s : SendBuf) : Except SendFault SendBuf :=
  if s.vecs.length < s.minIndexToAddref then .error .outOfBounds
  else
    match s.minIndexToAddref, s.vecs.drop s.minIndexToAddref with
    | 0, v :: vs =>
      match v.retain s.dataFrameHeaderBuf s.turn s.offWithinFirstVec with
      | .error fault => .error fault
      | .ok v' =>
        (retainAll s.dataFrameHeaderBuf s.turn vs).map fun vs' =>
          s.setRetained (if v.owned then s.offWithinFirstVec
            else 0) (v' :: vs')
    | _, vs =>
      (retainAll s.dataFrameHeaderBuf s.turn vs).map
      (s.setRetained s.offWithinFirstVec)

/-- What `on_send_emit` gives to the transport. -/
structure Emit where
  bytes : Bytes
  wroteAll : Bool
deriving DecidableEq

/-- The end of `on_send_emit`. -/
def SendBuf.requestProceed (s : SendBuf) (wroteAll : Bool) :
    Except SendFault SendBuf :=
  if s.state = .sendBody ∧ wroteAll ∧ s.sendOpen ∧ s.proceedRequested = false
  then
    s.retainSendvecs.map fun s =>
      { s with proceedRequested := true, proceedWhileSending := true }
  else .ok s

/-- `on_send_emit`. -/
def SendBuf.onSendEmit (s : SendBuf) (off len : Nat) :
    Except SendFault (SendBuf × Emit) :=
  if s.sending = false then .error .assertion
  else
    match seek Vec.len s.vecs (off + s.offWithinFirstVec) with
    | none => .error .assertion
    | some (skipped, rest, off') =>
      match writeVecs s.dataFrameHeaderBuf s.turn rest off' len with
      | .error fault => .error fault
      | .ok none => .ok ({ s with state := .closeWait }, ⟨[], true⟩)
      | .ok (some (rest', bytes, all)) =>
        ({ s with
          vecs := skipped ++ rest'
          emitted := max s.emitted (s.acked + off + bytes.length)
        }.requestProceed all).map fun s => (s, ⟨bytes, all⟩)

-- ==== acknowledgement

/-- `on_send_shift`. -/
def SendBuf.onSendShift (s : SendBuf) (delta : Nat) :
    Except SendFault SendBuf :=
  if s.sending = false ∨ delta = 0 then .error .assertion
  else
    match s.vecs with
    | [] => .error .assertion
    | v :: vs =>
      let s := { s with acked := s.acked + delta }
      let avail := v.len - s.offWithinFirstVec
      if delta < avail then
        .ok { s with offWithinFirstVec := s.offWithinFirstVec + delta }
      else
        match seek Vec.len vs (delta - avail) with
        | none => .error .assertion
        | some (skipped, rest, off) =>
          let s := { s with
            vecs := rest
            offWithinFirstVec := off
            minIndexToAddref := s.minIndexToAddref - (skipped.length + 1) }
          if rest ≠ [] then .ok s
          else if s.sendOpen = false then .ok { s with state := .closeWait }
          else if s.state.rank ≤ StreamState.sendHeaders.rank ∨
            s.proceedRequested then .ok s
          else .error .assertion

-- ==== events

inductive SendEvent where
  /-- The request is processed. -/
  | process
  /-- `do_send` by the generator. -/
  | send (headers : Bytes) (bufs : List Buf) (sendState : SendState)
    (waits : Bool)
  /-- `do_send` when SETTINGS have been received. -/
  | resume (headers : Bytes)
  /-- `do_send_informational`. -/
  | informational (headers : Bytes)
  | emit (off len : Nat)
  | shift (delta : Nat)
  /-- `h2o_proceed_response`: the generator releases its memory, and may send
  again. -/
  | proceed
deriving DecidableEq

def SendBuf.step (s : SendBuf) (e : SendEvent) : Except SendFault SendBuf :=
  match e with
  | .process =>
    .ok (if s.state.rank < StreamState.sendHeaders.rank then
      { s with state := .sendHeaders } else s)
  | .send headers bufs sendState waits =>
    { s with generatorTurn := false }.doSend headers bufs sendState waits
  | .resume headers =>
    { s with blocked := false }.doSend headers [] .inProgress false
  | .informational headers => .ok (s.writeResponse headers)
  | .emit off len => (s.onSendEmit off len).map Prod.fst
  | .shift delta => s.onSendShift delta
  | .proceed =>
    if s.proceedRequested then
      .ok { s with
        turn := s.turn + 1, generatorTurn := true
        proceedWhileSending := false }
    else .error .assertion

end H2o.Http3Server
