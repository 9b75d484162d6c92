/-
The HTTP/2 connection of the server and its streams (`lib/http2/connection.c`,
`lib/http2/stream.c`, `include/h2o/http2_internal.h`).

# Result codes

The functions return the negated codes of the specification, and some of their
own that must not get to the peer. They are integers here too.

# Streams

`streams` is the hash table; a stream that is closed is taken out of it, and
what still refers to it then is a fault. `_link` of a stream is in one of three
lists or in none. Counters are `uint32_t` and wrap.

Not modelled: the scheduler, input windows (`H2o.Http2Server`), statistics, the
mitigation of resets, replays after 425, push memos and cache digests.

Of the frames that are written `out` keeps those that carry an error code.
`blocks` are the header blocks that have been given to the handlers, with the
stream they were taken for.
-/
import H2o.Hpack.Request

namespace H2o.Http2Conn

open Http2 Hpack

-- ==== result codes

/-- `H2O_HTTP2_ERROR_*` that the functions of the client do not return. -/
def streamClosed : Int := -5
def enhanceYourCalm : Int := -11
def invalidHeaderChar : Int := -254
def incomplete : Int := -255
def protocolCloseImmediately : Int := -256

/-- The others. -/
def value : ErrorCode → Int
  | .none => 0
  | .protocol => -1
  | .internal => -2
  | .flowControl => -3
  | .frameSize => -6
  | .refusedStream => -7
  | .cancel => -8
  | .compression => -9
  | .protocolCloseImmediately => protocolCloseImmediately

/-- A frame with an error code, which is a 32-bit number. -/
inductive ErrorFrame where
  | goaway (lastStreamId code : Nat)
  | rstStream (streamId code : Nat)
deriving DecidableEq

def ErrorFrame.code : ErrorFrame → Nat
  | goaway _ code | rstStream _ code => code

/-- `(uint32_t)-errnum`. -/
def wireCode (errnum : Int) : Nat := (-errnum % 2 ^ 32).toNat

-- ==== streams

/-- `h2o_http2_stream_state_t`. -/
inductive StreamState where
  | idle
  | recvHeaders
  | recvBody
  | reqPending
  | sendHeaders
  | sendBody
  | sendBodyIsFinal
  | endStream
deriving DecidableEq

def StreamState.rank : StreamState → Nat
  | .idle => 0
  | .recvHeaders => 1
  | .recvBody => 2
  | .reqPending => 3
  | .sendHeaders => 4
  | .sendBody => 5
  | .sendBodyIsFinal => 6
  | .endStream => 7

/-- `enum en_h2o_req_body_state_t`. -/
inductive ReqBodyState where
  | none
  | openBeforeFirstFrame
  | open
  | closeQueued
  | closeDelivered
deriving DecidableEq

def ReqBodyState.rank : ReqBodyState → Nat
  | .none => 0
  | .openBeforeFirstFrame => 1
  | .open => 2
  | .closeQueued => 3
  | .closeDelivered => 4

/-- Which of `num_streams` a stream is counted in. -/
inductive Slot where
  | priority
  | pull
  | push
deriving DecidableEq

/-- `h2o_send_state_t`. -/
inductive SendState where
  | inProgress
  | final
  | error
deriving DecidableEq

/-- `h2o_http2_stream_t`. `hasBuf` is that `req_body.buf` is not `NULL` and
`bufSize` its size; `entity` is the length of `req.entity`, `none` when its
base is `NULL`; `data` is that `_data` is not empty. -/
structure Stream where
  id : Nat
  state : StreamState
  slot : Option Slot
  outputWindow : Int
  data : Bool
  sendState : SendState
  promiseSent : Bool
  blockedByServer : Bool
  delayedRst : Bool
  body : ReqBodyState
  hasBuf : Bool
  bufSize : Nat
  streamed : Bool
  headers : List Field
  contentLength : Option Nat
  received : Nat
  isTunnel : Bool
  proceedReq : Bool
  writeReq : Bool
  entity : Option Nat
  processCalled : Bool

def Stream.isPush (id : Nat) : Bool := id % 2 = 0

def Slot.ofId (id : Nat) : Slot := if Stream.isPush id then .push else .pull

-- ==== connection

/-- `h2o_http2_conn_num_streams_t`. -/
structure NumStreams where
  open_ : UInt32
  halfClosed : UInt32
  sendBody : UInt32
deriving DecidableEq

structure Config where
  maxStreams : Nat
  maxStreamsForPriority : Nat
  maxConcurrentRequests : Nat
  maxConcurrentStreamingRequests : Nat
  maxRequestEntitySize : Nat

inductive ConnState where
  | open
  | halfClosed
  | isClosing
deriving DecidableEq

/-- `_read_expect`. -/
inductive Expect where
  | preface
  | default
  | continuation
deriving DecidableEq

/-- `h2o_http2_conn_t`. -/
structure Conn where
  cfg : Config
  state : ConnState
  streams : List Stream
  pullMaxOpen : Nat
  pullMaxProcessed : Nat
  pushMaxOpen : Nat
  priority : NumStreams
  pull : NumStreams
  push : NumStreams
  blockedByServer : UInt32
  reqStreaming : UInt32
  tunnel : UInt32
  readExpect : Expect
  headersUnparsed : Option Bytes
  inputTable : HeaderTable
  peerSettings : Settings
  writeWindow : Int
  pendingReqs : List Nat
  streamsToProceed : List Nat
  out : List ErrorFrame
  blocks : List (Nat × Bytes)

/-- `create_conn`. -/
def Conn.create (cfg : Config) : Conn where
  cfg := cfg
  state := .open
  streams := []
  pullMaxOpen := 0
  pullMaxProcessed := 0
  pushMaxOpen := 0
  priority := ⟨0, 0, 0⟩
  pull := ⟨0, 0, 0⟩
  push := ⟨0, 0, 0⟩
  blockedByServer := 0
  reqStreaming := 0
  tunnel := 0
  readExpect := .preface
  headersUnparsed := none
  inputTable := .create 4096 4096
  peerSettings := .default
  writeWindow := 65535
  pendingReqs := []
  streamsToProceed := []
  out := []
  blocks := []

inductive Fault where
  | assertion
  /-- `h2o_fatal`. -/
  | fatal
  /-- A stream is used that is not there any more. -/
  | freed
deriving DecidableEq

/-- What is decided elsewhere: what `h2o_req_can_stream_request` and
`h2o_req_should_forward_expect` say, whether `write_req` fails, and whether
there is something left of the input window of the stream. -/
structure Env where
  canStream : Bool
  forwardExpect : Bool
  writeFails : Bool
  windowLeft : Bool
deriving DecidableEq

namespace Conn

/-- `h2o_http2_conn_get_stream`. -/
def getStream (c : Conn) (id : Nat) : Option Stream :=
  c.streams.find? fun s => s.id = id

/-- The stream behind a pointer. -/
def stream (c : Conn) (id : Nat) : Except Fault Stream :=
  match c.getStream id with
  | none => .error .freed
  | some s => .ok s

/-- What has been written to a stream. -/
def put (c : Conn) (s : Stream) : Conn :=
  { c with streams := c.streams.map fun t => if t.id = s.id then s else t }

def numStreams (c : Conn) : Slot → NumStreams
  | .priority => c.priority
  | .pull => c.pull
  | .push => c.push

def setNumStreams (c : Conn) (slot : Slot) (n : NumStreams) : Conn :=
  match slot with
  | .priority => { c with priority := n }
  | .pull => { c with pull := n }
  | .push => { c with push := n }

/-- An update of the counters a stream is counted in. -/
def count (c : Conn) (s : Stream) (f : NumStreams → NumStreams) :
    Except Fault Conn :=
  match s.slot with
  | none => .error .assertion
  | some slot => .ok (c.setNumStreams slot (f (c.numStreams slot)))

def isLinked (c : Conn) (id : Nat) : Bool :=
  id ∈ c.pendingReqs ∨ id ∈ c.streamsToProceed

/-- `h2o_linklist_unlink`. -/
def unlink (c : Conn) (id : Nat) : Conn :=
  { c with
    pendingReqs := c.pendingReqs.erase id
    streamsToProceed := c.streamsToProceed.erase id }

/-- `h2o_linklist_insert` into `_pending_reqs`. -/
def linkPending (c : Conn) (id : Nat) : Except Fault Conn :=
  if c.isLinked id then .error .assertion
  else .ok { c with pendingReqs := c.pendingReqs ++ [id] }

/-- `h2o_linklist_insert` into `_write.streams_to_proceed`. -/
def linkProceed (c : Conn) (id : Nat) : Except Fault Conn :=
  if c.isLinked id then .error .assertion
  else .ok { c with streamsToProceed := c.streamsToProceed ++ [id] }

-- ==== errors

/-- `enqueue_goaway`. -/
def enqueueGoaway (c : Conn) (errnum : Int) : Conn :=
  if c.state = .isClosing then c
  else
    { c with
      out := c.out ++ [.goaway c.pullMaxOpen (wireCode errnum)]
      state := .halfClosed }

/-- `close_connection`. -/
def closeConnection (c : Conn) : Conn := { c with state := .isClosing }

/-- `h2o_http2_encode_rst_stream_frame`. -/
def encodeRstStream (c : Conn) (id : Nat) (errnum : Int) : Conn :=
  { c with out := c.out ++ [.rstStream id (wireCode errnum)] }

/-- `stream_send_error`. -/
def streamSendError (c : Conn) (id : Nat) (errnum : Int) : Except Fault Conn :=
  if id = 0 ∨ c.state = .isClosing then .error .assertion
  else .ok (c.encodeRstStream id errnum)

-- ==== states of the streams

/-- `h2o_http2_stream_set_blocked_by_server`. -/
def setBlockedByServer (c : Conn) (id : Nat) (on : Bool) : Except Fault Conn :=
  do
    let s ← c.stream id
    if s.blockedByServer = on then .error .assertion
    else
      .ok { c.put { s with blockedByServer := on } with
        blockedByServer :=
          if on then c.blockedByServer + 1 else c.blockedByServer - 1 }

/-- The counters when a stream comes to its end. -/
def countEnd (c : Conn) (s : Stream) : Except Fault Conn :=
  c.count s fun n =>
    { open_ := n.open_ - 1
      halfClosed :=
        if s.state = .sendHeaders ∨ s.state = .sendBody ∨
            s.state = .sendBodyIsFinal then n.halfClosed - 1
        else n.halfClosed
      sendBody :=
        if s.state = .sendBody ∨ s.state = .sendBodyIsFinal then n.sendBody - 1
        else n.sendBody }

/-- `h2o_http2_stream_set_state`. -/
def setState (c : Conn) (id : Nat) (new : StreamState) :
    Except Fault Conn := do
  let s ← c.stream id
  match new with
  | .idle => .error .assertion
  | .recvHeaders =>
    if s.state ≠ .idle then .error .assertion
    else
      -- `h2o_http2_stream_update_open_slot`
      let c ← c.count s fun n => { n with open_ := n.open_ - 1 }
      let s := { s with slot := some (.ofId id), state := new }
      let c ← c.count s fun n => { n with open_ := n.open_ + 1 }
      .ok (c.put s)
  | .recvBody | .reqPending => .ok (c.put { s with state := new })
  | .sendHeaders =>
    if s.state ≠ .reqPending then .error .assertion
    else
      let c ← c.count s fun n => { n with halfClosed := n.halfClosed + 1 }
      .ok (c.put { s with state := new })
  | .sendBody =>
    if s.state ≠ .sendHeaders then .error .assertion
    else
      let c ← c.count s fun n => { n with sendBody := n.sendBody + 1 }
      .ok (c.put { s with state := new })
  | .sendBodyIsFinal =>
    if s.state ≠ .sendBody then .error .assertion
    else .ok (c.put { s with state := new })
  | .endStream =>
    if s.state = .endStream then .error .assertion
    else
      let c ← c.countEnd s
      let c := c.put { s with state := new, slot := none }
      if s.blockedByServer then c.setBlockedByServer id false else .ok c

/-- `set_req_body_state`. -/
def setReqBodyState (c : Conn) (id : Nat) (new : ReqBodyState) :
    Except Fault Conn := do
  let s ← c.stream id
  if new.rank ≤ s.body.rank then .error .assertion
  else if new = .none then .error .fatal
  else if new = .closeDelivered then
    if s.proceedReq then .error .assertion
    else
      let c := c.put { s with body := new }
      .ok (if s.streamed then
        { c with
          reqStreaming := c.reqStreaming - 1
          tunnel := if s.isTunnel then c.tunnel - 1 else c.tunnel }
        else c)
  else .ok (c.put { s with body := new })

/-- `h2o_http2_stream_open`. -/
def streamOpen (c : Conn) (id : Nat) : Conn :=
  { c with
    streams := c.streams ++
      [{ id := id, state := .idle, slot := some .priority
         outputWindow := c.peerSettings.initialWindowSize.toNat
         data := false, sendState := .inProgress, promiseSent := false
         blockedByServer := false, delayedRst := false, body := .none
         hasBuf := false, bufSize := 0, streamed := false, headers := []
         contentLength := none, received := 0, isTunnel := false
         proceedReq := false, writeReq := false, entity := none
         processCalled := false }]
    priority := { c.priority with open_ := c.priority.open_ + 1 } }

/-- The request body of a stream that is unregistered. -/
def abandonBody (c : Conn) (id : Nat) : Except Fault Conn := do
  let s ← c.stream id
  if s.body ≠ .none ∧ s.body ≠ .closeDelivered then
    (c.put { s with proceedReq := false }).setReqBodyState id .closeDelivered
  else .ok c

/-- The link of a stream that is unregistered. -/
def unlinkClosed (c : Conn) (s : Stream) : Except Fault Conn :=
  match s.state with
  | .idle | .recvHeaders =>
    if c.isLinked s.id then .error .assertion else .ok c
  | .reqPending =>
    if c.isLinked s.id then .ok (c.unlink s.id) else .error .assertion
  | .recvBody | .sendHeaders | .sendBody | .sendBodyIsFinal | .endStream =>
    .ok (c.unlink s.id)

/-- `h2o_http2_stream_close` and `h2o_http2_conn_unregister_stream`. -/
def streamClose (c : Conn) (id : Nat) : Except Fault Conn := do
  let c ← c.abandonBody id
  let s ← c.stream id
  let c ← (if s.blockedByServer then c.setBlockedByServer id false else .ok c)
  let c ← c.unlinkClosed s
  let c ← (if s.state = .endStream then .ok c else c.setState id .endStream)
  .ok { c with streams := c.streams.filter fun t => t.id ≠ id }

/-- `h2o_http2_stream_reset`. -/
def streamReset (c : Conn) (id : Nat) : Except Fault Conn := do
  let s ← c.stream id
  if s.state.rank ≤ StreamState.reqPending.rank then c.streamClose id
  else
    let c ← (if s.state = .endStream then .ok c else c.setState id .endStream)
    let s ← c.stream id
    let c := c.put { s with data := false }
    -- if it is linked, it will be closed in the callback
    if c.isLinked id then .ok c else c.streamClose id

/-- `reset_stream_if_disregarded` finds a stream that was opened after
GOAWAY. -/
def disregarded (c : Conn) (id : Nat) : Bool :=
  !Stream.isPush id && decide (id > c.pullMaxOpen)

/-- `h2o_http2_stream_prepare_for_request`. -/
def prepareForRequest (c : Conn) (id : Nat) : Except Fault Conn := do
  if c.state = .isClosing then .error .assertion
  else
    let c :=
      if Stream.isPush id then { c with pushMaxOpen := max c.pushMaxOpen id }
      else if c.state = .open then
        { c with pullMaxOpen := max c.pullMaxOpen id }
      else c
    let c ← c.setState id .recvHeaders
    let s ← c.stream id
    .ok (c.put { s with
      outputWindow := c.peerSettings.initialWindowSize.toNat })

end Conn

end H2o.Http2Conn
