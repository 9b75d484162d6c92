/-
Datagram flows of an HTTP/3 server connection (`lib/http3/server.c`).

# The connection

`datagramFlows` maps flow ids to streams, and `settingsBlocked` is the list of
streams whose response waits for SETTINGS. A stream that has been destroyed is
not in `streams` any more. `datagram_flow_id` is not set before a CONNECT
request is processed: what the memory held is a parameter of `Event.open`.

# The events

What the peer, the handler of a request and the transport do are events, in any
order. The handler of a request is there from `h2o_process_request` until the
request is disposed of; it does not call `h2o_send` before it is asked to
proceed or after the last one. The queues, the counters of streams, the buffers
and the bodies are not modelled: whether they are empty is a parameter.
-/
import Mathlib.Logic.Function.Basic
import H2o.StringUtil

namespace H2o.Http3Server

-- ==== streams

/-- `enum h2o_http3_server_stream_state`. -/
inductive StreamState where
  | recvHeaders
  | recvBodyBeforeBlock
  | recvBodyBlocked
  | recvBodyUnblocked
  | reqPending
  | sendHeaders
  | sendBody
  | closeWait
deriving DecidableEq

def StreamState.rank : StreamState → Nat
  | .recvHeaders => 0
  | .recvBodyBeforeBlock => 1
  | .recvBodyBlocked => 2
  | .recvBodyUnblocked => 3
  | .reqPending => 4
  | .sendHeaders => 5
  | .sendBody => 6
  | .closeWait => 7

/-- `UINT64_MAX`. -/
def noFlow : UInt64 := 0xffffffffffffffff

/-- `struct st_h2o_http3_server_stream_t`. `write` and `read` say whether the
callbacks of `forward_datagram` are set, `proceedReq` whether `proceed_req`
is, and `sendOpen` is `quicly_sendstate_is_open`. -/
structure Stream where
  state : StreamState
  datagramFlowId : UInt64
  isTunnelReq : Bool
  status : Nat
  write : Bool
  read : Bool
  proceedReq : Bool
  sendOpen : Bool
  reqDisposed : Bool
deriving DecidableEq

/-- `on_stream_open`. -/
def Stream.init (memory : UInt64) : Stream where
  state := .recvHeaders
  datagramFlowId := memory
  isTunnelReq := false
  status := 0
  write := false
  read := false
  proceedReq := false
  sendOpen := true
  reqDisposed := false

structure Conn where
  streams : Nat → Option Stream
  datagramFlows : UInt64 → Option Nat
  settingsBlocked : List Nat
  /-- SETTINGS of the peer: is `h3_datagram` on? -/
  peerSettings : Option Bool

inductive Fault where
  /-- The assertion of `datagram_frame_receive_cb`. -/
  | noCallback
  /-- A stream that has been destroyed is used. -/
  | deadStream
  /-- Another assertion. -/
  | assertion
deriving DecidableEq

def Conn.init : Conn := ⟨fun _ => none, fun _ => none, [], none⟩

def Conn.setStream (c : Conn) (id : Nat) (s : Stream) : Conn :=
  { c with streams := Function.update c.streams id (some s) }

-- ==== requests

/-- The requests with special handling, and what `datagram_flow_id` is read
from. -/
inductive ConnectKind where
  /-- `CONNECT`, maybe with `:protocol`. -/
  | connect (extended : Bool)
  /-- `CONNECT-UDP`, maybe with a field `datagram-flow-id`. -/
  | connectUdp (field : Option Bytes)
deriving DecidableEq

def isDigit (ch : UInt8) : Bool := 0x30 ≤ ch ∧ ch ≤ 0x39

/-- The digits up to the first octet that is none. -/
def parseFlowId (field : Bytes) : UInt64 :=
  (field.takeWhile isDigit).foldl (fun id ch =>
    id * 10 + UInt64.ofNat (ch.toNat - 0x30)) 0

/-- `datagram_flow_id` of a request; `none` on a connection error. -/
def ConnectKind.flowId (canReceiveDatagrams : Bool) (streamId : Nat) :
    ConnectKind → Option UInt64
  | .connect extended =>
    if extended ∧ canReceiveDatagrams then some (UInt64.ofNat (streamId / 4))
    else some noFlow
  | .connectUdp none => some noFlow
  | .connectUdp (some field) =>
    if canReceiveDatagrams then some (parseFlowId field) else none

/-- `handle_input_expect_headers_process_connect`. -/
def Stream.processConnect (s : Stream) (flowId : UInt64) : Stream :=
  { s with
    isTunnelReq := true
    datagramFlowId := flowId
    proceedReq := true
    state := .sendHeaders }

-- ==== closing

/-- The flow of the stream is removed (`pre_dispose_request`). The entry that
is found is not always its own. -/
def Conn.preDispose (c : Conn) (s : Stream) : Conn :=
  if s.datagramFlowId = noFlow then c
  else
    { c with
      datagramFlows := Function.update c.datagramFlows s.datagramFlowId none }

/-- `set_state` to `CLOSE_WAIT`. -/
def Conn.closeWait (c : Conn) (id : Nat) (s : Stream) (inGenerator : Bool) :
    Conn :=
  (c.preDispose s).setStream id { s with
      state := .closeWait
      reqDisposed := s.reqDisposed || !inGenerator }

/-- `shutdown_stream`. -/
def Conn.shutdownStream (c : Conn) (id : Nat) (s : Stream)
    (inGenerator resetOnlyIfOpen : Bool) : Except Fault Conn :=
  if s.state = .closeWait then .error .assertion
  else if resetOnlyIfOpen ∧ s.sendOpen = false then
    .ok (if s.state.rank < StreamState.sendBody.rank then
      c.setStream id { s with state := .sendBody }
    else c)
  else .ok (c.closeWait id { s with sendOpen := false } inGenerator)

/-- `on_stream_destroy`. -/
def Conn.destroy (c : Conn) (id : Nat) (s : Stream) : Conn :=
  let c := if s.state = .closeWait then c else c.preDispose s
  { c with
    streams := Function.update c.streams id none
    settingsBlocked := c.settingsBlocked.erase id }

-- ==== responses

/-- `finalize_do_send_setup_udp_tunnel`, with what it returns. -/
def Conn.setupUdpTunnel (c : Conn) (id : Nat) (s : Stream)
    (inProgress : Bool) : Except Fault (Conn × Bool) :=
  if ¬((200 ≤ s.status ∧ s.status ≤ 299) ∧ s.write) ∨ inProgress = false then
    .ok (c.setStream id { s with datagramFlowId := noFlow }, true)
  else if s.datagramFlowId = noFlow then .ok (c, true)
  else
    let c := { c with
      datagramFlows := Function.update c.datagramFlows s.datagramFlowId
        (some id) }
    match c.peerSettings with
    | none =>
      if id ∈ c.settingsBlocked then .error .assertion
      else .ok ({ c with settingsBlocked := c.settingsBlocked ++ [id] }, false)
    | some h3Datagram =>
      .ok (if h3Datagram then c.setStream id { s with read := true }
        else c, true)

/-- The end of `do_send`: `shutdown_by_generator` unless more will follow.
`drained` says that no vector is left. -/
def Conn.finishSend (c : Conn) (id : Nat) (s : Stream)
    (inProgress drained : Bool) : Conn :=
  if inProgress then c.setStream id s
  else if drained then c.closeWait id { s with sendOpen := false } true
  else c.setStream id { s with sendOpen := false }

/-- `do_send`. -/
def Conn.doSend (c : Conn) (id : Nat) (inProgress drained : Bool) :
    Except Fault Conn :=
  match c.streams id with
  | none => .error .deadStream
  | some s =>
    match s.state with
    | .sendHeaders =>
      match c.setupUdpTunnel id s inProgress with
      | .error fault => .error fault
      | .ok (c, false) => .ok c
      | .ok (c, true) =>
        match c.streams id with
        | none => .error .deadStream
        | some s => .ok (c.finishSend id { s with
          state := .sendBody } inProgress drained)
    | .sendBody =>
      if s.sendOpen then .ok (c.finishSend id s inProgress drained)
      else .error .assertion
    | .closeWait => .ok c
    | _ => .error .assertion

/-- A stream whose response was blocked. -/
def Conn.unblock (c : Conn) (id : Nat) : Except Fault Conn :=
  { c with settingsBlocked := c.settingsBlocked.erase id }.doSend id true true

/-- `handle_control_stream_frame` of the first SETTINGS frame. -/
def Conn.receiveSettings (c : Conn) (h3Datagram : Bool) : Except Fault Conn :=
  c.settingsBlocked.foldlM Conn.unblock
    { c with peerSettings := some h3Datagram }

-- ==== request streaming

/-- How far the request has been received when `proceed_req` is called. -/
structure Received where
  /-- `quicly_recvstate_transfer_complete`. -/
  complete : Bool
  /-- RESET_STREAM has been received. -/
  reset : Bool
  /-- There are octets that have not been processed. -/
  bytesAvailable : Bool
deriving DecidableEq

/-- Does `proceed_request_streaming` tidy up? -/
def tidiesUp (err : Bool) (r : Received) : Bool :=
  err || (r.complete && (r.reset || !r.bytesAvailable))

/-- `proceed_request_streaming`; input that is left is another event. -/
def Conn.proceedRequestStreaming (c : Conn) (id : Nat) (s : Stream)
    (err : Bool) (r : Received) : Except Fault Conn :=
  if tidiesUp err r then
    let s := { s with write := false, proceedReq := false }
    if err ∨ r.reset then (c.setStream id s).shutdownStream id s true true
    else .ok (c.setStream id s)
  else .ok c

/-- `datagram_frame_receive_cb`. -/
def Conn.receiveDatagram (c : Conn) (flowId : UInt64) : Except Fault Conn :=
  match c.datagramFlows flowId with
  | none => .ok c
  | some id =>
    match c.streams id with
    | none => .error .deadStream
    | some s => if s.write then .ok c else .error .noCallback

-- ==== events

inductive Event where
  | open (id : Nat) (memory : UInt64)
  /-- A CONNECT request. -/
  | connect (id : Nat) (kind : ConnectKind) (canReceiveDatagrams : Bool)
  /-- Another request proceeds to a later state of its reception. -/
  | receive (id : Nat) (state : StreamState)
  /-- Another request is processed. -/
  | process (id : Nat) (streaming : Bool)
  /-- The handler sets `forward_datagram.write_`. -/
  | setWrite (id : Nat)
  /-- The handler sends. -/
  | send (id : Nat) (status : Nat) (inProgress drained : Bool)
  /-- The handler calls `proceed_req`. -/
  | proceedReq (id : Nat) (err : Bool) (r : Received)
  | settings (h3Datagram : Bool)
  /-- The peer resets or stops the stream, or there is an error. -/
  | shutdown (id : Nat) (inGenerator resetOnlyIfOpen : Bool)
  /-- `on_send_shift` of the last octets. -/
  | acked (id : Nat)
  | destroy (id : Nat)
  | datagram (flowId : UInt64)
deriving DecidableEq

/-- A step on a stream that is alive and satisfies `cond`. -/
def Conn.onStream (c : Conn) (id : Nat) (cond : Stream → Bool)
    (f : Stream → Except Fault Conn) : Except Fault Conn :=
  match c.streams id with
  | none => .ok c
  | some s => if cond s then f s else .ok c

/-- Is there a handler for the request? -/
def Stream.handled (s : Stream) : Bool :=
  s.reqDisposed = false ∧ StreamState.sendHeaders.rank ≤ s.state.rank

def Conn.step (c : Conn) (e : Event) : Except Fault Conn :=
  match e with
  | .open id memory =>
    if c.streams id = none then .ok (c.setStream id (.init memory)) else .ok c
  | .connect id kind canReceiveDatagrams =>
    c.onStream id (·.state = .recvHeaders) fun s =>
      match kind.flowId canReceiveDatagrams id with
      | none => .ok c
      | some flowId => .ok (c.setStream id (s.processConnect flowId))
  | .receive id state =>
    c.onStream id (fun s => s.state.rank < state.rank ∧
        state.rank < StreamState.sendHeaders.rank) fun s =>
      .ok (c.setStream id { s with state := state })
  | .process id streaming =>
    c.onStream id (·.state.rank < StreamState.sendHeaders.rank) fun s =>
      .ok (c.setStream id
        { s with state := .sendHeaders, proceedReq := streaming })
  | .setWrite id =>
    c.onStream id Stream.handled fun s =>
      .ok (c.setStream id { s with write := true })
  | .send id status inProgress drained =>
    c.onStream id (fun s => s.handled ∧ s.sendOpen ∧ id ∉ c.settingsBlocked)
      fun s =>
        (c.setStream id
          { s with status := if s.state = .sendHeaders then status
              else s.status }).doSend id inProgress drained
  | .proceedReq id err r =>
    c.onStream id (fun s => s.handled ∧ s.proceedReq) fun s =>
      c.proceedRequestStreaming id s err r
  | .settings h3Datagram =>
    if c.peerSettings = none then c.receiveSettings h3Datagram else .ok c
  | .shutdown id inGenerator resetOnlyIfOpen =>
    c.onStream id (·.state ≠ .closeWait) fun s =>
      c.shutdownStream id s inGenerator resetOnlyIfOpen
  | .acked id =>
    c.onStream id (fun s => s.state ≠ .closeWait ∧ s.sendOpen = false)
      fun s => .ok (c.closeWait id s false)
  | .destroy id => c.onStream id (fun _ => true) fun s => .ok (c.destroy id s)
  | .datagram flowId => c.receiveDatagram flowId

end H2o.Http3Server
