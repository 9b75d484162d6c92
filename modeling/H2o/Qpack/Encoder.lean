/-
The QPACK encoder (`lib/http3/qpack.c`): the instructions of the decoder
stream, and the serialisation of field sections.

# The decoder stream

`encoderHandleInput` is `h2o_qpack_encoder_handle_input`. It maintains the
largest insert known to have been received, and the list of field sections
that refer to the dynamic table and are not acknowledged. `int64_t` values the
peer can drive are `Int64`, so that they wrap as executed. Removing a section
from the middle of the list is a `memmove` of bytes; the list is moved here as
the bytes it is stored as (`Inflight.toBytes`, little endian).

# Field sections

A section is built in a context that holds the encoder, the encoder stream (if
it may be written to) and the octets so far. `flattenRequest` and
`flattenResponse` return the field section without the HTTP/3 frame header.
Reading an entry outside of the table, and a failing assertion, is a `Fault`.
-/
import H2o.Qpack.Table

namespace H2o.Qpack

open Hpack

-- ==== state

/-- An entry of the in-flight list, `struct st_h2o_qpack_blocked_streams_t`. -/
structure Inflight where
  streamId : Int64
  largestRef : Int64
  isBlocking : UInt8
deriving DecidableEq

/-- `struct st_h2o_qpack_encoder_t`. -/
structure Encoder where
  table : HeaderTable
  largestKnownReceived : Int64
  maxBlocked : UInt16
  numBlocked : UInt16
  inflight : List Inflight

/-- `h2o_qpack_create_encoder`. -/
def Encoder.create (headerTableSize : UInt32) (maxBlocked : UInt16) :
    Encoder where
  table := .init headerTableSize.toNat
  largestKnownReceived := 0
  maxBlocked := maxBlocked
  numBlocked := 0
  inflight := []

/-- `qpack_table_total_inserts`, as the `int64_t` it is compared as. -/
def Encoder.totalInserts (q : Encoder) : Int64 :=
  Int64.ofNat q.table.totalInserts

-- ==== the in-flight list as bytes

/-- The octets of an `int64_t`, least significant first. -/
def le64 (v : Int64) : Bytes := (List.range 8).map fun i =>
    UInt8.ofNat (v.toUInt64.toNat / 256 ^ i)

def ofLe64 (b : Bytes) : Int64 :=
  (UInt64.ofNat (b.foldr (fun x acc => x.toNat + 256 * acc) 0)).toInt64

/-- `sizeof(struct st_h2o_qpack_blocked_streams_t)`. -/
def inflightSize : Nat := 24

/-- The layout of an entry; the last seven octets are padding. -/
def Inflight.toBytes (e : Inflight) : Bytes :=
  le64 e.streamId ++ le64 e.largestRef ++ e.isBlocking :: List.replicate 7 0

def Inflight.ofBytes (b : Bytes) : Inflight :=
  ⟨ofLe64 (b.take 8), ofLe64 ((b.drop 8).take 8), (b.drop 16).headD 0⟩

/-- The list that `n` entries of memory hold. -/
def inflightOfBytes : Nat → Bytes → List Inflight
  | 0, _ => []
  | n + 1, b =>
    Inflight.ofBytes (b.take inflightSize) ::
      inflightOfBytes n (b.drop inflightSize)

/-- `memmove` within a block of memory. -/
def memmove (mem : Bytes) (dst src len : Nat) : Bytes :=
  mem.take dst ++ (mem.drop src).take len ++ mem.drop (dst + len)

-- ==== decoder stream

/-- `handle_table_state_synchronize`. -/
def handleTableStateSynchronize (q : Encoder) (insertCount : Nat) :
    Except Error Encoder :=
  let newValue := q.largestKnownReceived + Int64.ofNat insertCount
  if insertCount = 0 ∨ newValue ≥ q.totalInserts then
    .error (.qpackDecoderStream .tableStateSynchronize)
  else .ok { q with largestKnownReceived := newValue }

/-- The list after an entry is evicted. The number of entries that follow is
passed to `memmove` as the number of bytes. -/
def inflightEvicted (l : List Inflight) (index : Nat) : List Inflight :=
  let size := l.length - 1
  if size = 0 then []
  else if index < size then
    inflightOfBytes size (memmove (l.flatMap Inflight.toBytes)
      (inflightSize * index) (inflightSize * (index + 1)) (size - index))
  else l.take size

/-- `evict_inflight_by_index`. -/
def evictInflightByIndex (q : Encoder) (index : Nat) : Encoder :=
  { q with
    numBlocked :=
      if (q.inflight.getD index ⟨0, 0, 0⟩).isBlocking ≠ 0 then q.numBlocked - 1
      else q.numBlocked
    inflight := inflightEvicted q.inflight index }

/-- `handle_header_ack`. -/
def handleHeaderAck (q : Encoder) (streamId : Nat) : Except Error Encoder :=
  match q.inflight.findIdx? fun e => e.streamId == Int64.ofNat streamId with
  | none => .error (.qpackDecoderStream .headerAcknowledgement)
  | some i =>
    let largestRef := (q.inflight.getD i ⟨0, 0, 0⟩).largestRef
    let q := if q.largestKnownReceived < largestRef then
        { q with largestKnownReceived := largestRef }
      else q
    .ok (evictInflightByIndex q i)

/-- The loop of `handle_stream_cancellation`; each round evicts an entry or
passes one. -/
def cancelLoop (streamId : Int64) : Nat → Nat → Encoder → Encoder
  | 0, _, q => q
  | n + 1, index, q =>
    if index < q.inflight.length then
      if (q.inflight.getD index ⟨0, 0, 0⟩).streamId = streamId then
        cancelLoop streamId n index (evictInflightByIndex q index)
      else cancelLoop streamId n (index + 1) q
    else q

/-- `handle_stream_cancellation`. -/
def handleStreamCancellation (q : Encoder) (streamId : Nat) : Encoder :=
  cancelLoop (Int64.ofNat streamId) q.inflight.length 0 q

/-- The three instructions of the decoder stream. -/
inductive DecoderInstruction where
  | tableStateSynchronize (insertCount : Nat)
  | headerAck (streamId : Nat)
  | streamCancellation (streamId : Nat)
deriving DecidableEq

/-- The `switch` of `h2o_qpack_encoder_handle_input`, up to the handler. -/
def readDecoderInstruction (src : Bytes) :
    Except Error (DecoderInstruction × Bytes) :=
  match src with
  | [] => .error .incomplete
  | b :: _ =>
    match b.toNat / 64 with
    | 0 => (decodeInt src 6).map fun r => (.tableStateSynchronize r.1, r.2)
    | 1 => (decodeInt src 6).map fun r => (.streamCancellation r.1, r.2)
    | _ => (decodeInt src 7).map fun r => (.headerAck r.1, r.2)

/-- The handler of an instruction. -/
def handleDecoderInstruction (q : Encoder) :
    DecoderInstruction → Except Error Encoder
  | .tableStateSynchronize insertCount =>
    handleTableStateSynchronize q insertCount
  | .headerAck streamId => handleHeaderAck q streamId
  | .streamCancellation streamId => .ok (handleStreamCancellation q streamId)

/-- The loop: the encoder, and the input left or the error. -/
def encoderInstructions : Nat → Encoder → Bytes → Encoder × Except Error Bytes
  | 0, q, src => (q, .ok src)
  | n + 1, q, src =>
    if src = [] then (q, .ok src)
    else
      match readDecoderInstruction src with
      | .error .incomplete => (q, .ok src)
      | .error e => (q, .error e)
      | .ok (i, src) =>
        match handleDecoderInstruction q i with
        | .ok q => encoderInstructions n q src
        | .error e => (q, .error e)

/-- `h2o_qpack_encoder_handle_input`. -/
def encoderHandleInput (q : Encoder) (src : Bytes) :
    Encoder × Except Error Bytes :=
  encoderInstructions src.length q src

-- ==== dynamic lookups

/-- What a call cannot return from: a read outside of the table, or the
assertion on the number of blocked sections. -/
inductive Fault where
  | outOfBounds
  | assertNumBlocked
deriving DecidableEq

/-- The comparison of names: tokens by address, others by bytes. -/
def nameMatches (name entryName : Name) : Bool :=
  match name with
  | .token _ => entryName == name
  | .buf b => entryName.bytes == b

/-- The loop of `lookup_dynamic`, from the newest of the first `n` entries. -/
def lookupLoop (t : HeaderTable) (name : Name) (value : Bytes) :
    Nat → Int → Int × Bool
  | 0, found => (found, false)
  | n + 1, found =>
    let entry := t.entries.getD n ⟨.buf [], [], .none⟩
    let i : Int := t.baseOffset + n
    if !nameMatches name entry.name then lookupLoop t name value n found
    else if value = entry.value then (i, true)
    else lookupLoop t name value n (if found = -1 then i else found)

/-- Where `lookup_dynamic` starts, as the `size_t` it is. -/
def lookupStart (q : Encoder) (ackedOnly : Bool) : Nat :=
  if ackedOnly then q.largestKnownReceived.toUInt64.toNat
  else q.table.totalInserts - 1

/-- `lookup_dynamic`: the index or -1, and `is_exact`. -/
def lookupDynamic (q : Encoder) (name : Name) (value : Bytes)
    (ackedOnly : Bool) : Except Fault (Int × Bool) :=
  let start := lookupStart q ackedOnly
  if start < q.table.totalInserts then
    .ok (lookupLoop q.table name value (start + 1 - q.table.baseOffset) (-1))
  else .error .outOfBounds

-- ==== serialising a section

/-- `flatten_int`, on the octet already stored. A negative value passes the
test for a single octet and is cut to it. -/
def flattenInt (dst : UInt8) (value : Int) (prefixBits : Nat) : Bytes :=
  if value < 0 then [dst ||| UInt8.ofNat (value % 256).toNat]
  else encodeInt dst value.toNat prefixBits

/-- `flatten_string`. Of the octet already stored, `dst`, what is above the
Huffman mark is kept. -/
def flattenString (dst : UInt8) (src : Bytes) (prefixBits : Nat)
    (dontCompress : Bool) : Bytes :=
  match if dontCompress then none else encodeHuffman src with
  | none =>
    encodeInt (dst &&& ~~~(UInt8.ofNat (2 * 2 ^ prefixBits - 1)))
      src.length prefixBits ++ src
  | some huff =>
    encodeInt ((dst &&& ~~~(UInt8.ofNat (2 ^ prefixBits - 1))) |||
      UInt8.ofNat (2 ^ prefixBits)) huff.length prefixBits ++ huff

/-- The octet a string is flattened onto when the caller has not stored one.
Nothing of it is kept under a seven-bit prefix. -/
def unsetOctet : UInt8 := 0

/-- `emit_insert_with_nameref`. -/
def emitInsertWithNameref (buf : Bytes) (isStatic : Bool) (index : Int)
    (value : Bytes) : Bytes :=
  buf ++ flattenInt (0x80 ||| (if isStatic then 0x40 else 0)) index 6 ++
    flattenString unsetOctet value 7 false

/-- `emit_insert_without_nameref`. -/
def emitInsertWithoutNameref (buf : Bytes) (name value : Bytes) : Bytes :=
  buf ++ flattenString 0x40 name 5 false ++
    flattenString unsetOctet value 7 false

/-- `struct st_h2o_qpack_flatten_context_t`. -/
structure FlattenCtx where
  qpack : Option Encoder
  streamId : Int64
  encoderBuf : Option Bytes
  headersBuf : Bytes
  baseIndex : Int
  largestRef : Int

/-- `flatten_static_indexed`. -/
def flattenStaticIndexed (ctx : FlattenCtx) (index : Int) : FlattenCtx :=
  { ctx with headersBuf := ctx.headersBuf ++ flattenInt 0xc0 index 6 }

/-- `flatten_dynamic_indexed`. -/
def flattenDynamicIndexed (ctx : FlattenCtx) (index : Int) : FlattenCtx :=
  { ctx with
    largestRef := if index > ctx.largestRef then index else ctx.largestRef
    headersBuf := ctx.headersBuf ++
      if index ≤ ctx.baseIndex then
        flattenInt 0x80 (ctx.baseIndex - index) 6
      else flattenInt 0x10 (index - ctx.baseIndex - 1) 4 }

/-- `flatten_static_nameref`. -/
def flattenStaticNameref (ctx : FlattenCtx) (index : Int) (value : Bytes)
    (dontCompress : Bool) : FlattenCtx :=
  { ctx with
    headersBuf := ctx.headersBuf ++
      flattenInt (0x50 ||| (if dontCompress then 0x20 else 0)) index 4 ++
      flattenString unsetOctet value 7 dontCompress }

/-- `flatten_dynamic_nameref`. -/
def flattenDynamicNameref (ctx : FlattenCtx) (index : Int) (value : Bytes)
    (dontCompress : Bool) : FlattenCtx :=
  { ctx with
    largestRef := if index > ctx.largestRef then index else ctx.largestRef
    headersBuf := ctx.headersBuf ++ (if index ≤ ctx.baseIndex then
        flattenInt (0x40 ||| (if dontCompress then 0x20 else 0))
          (ctx.baseIndex - index) 4
      else
        flattenInt (if dontCompress then 0x8
          else 0) (index - ctx.baseIndex - 1) 3) ++
      flattenString unsetOctet value 7 dontCompress }

/-- `flatten_without_nameref`. -/
def flattenWithoutNameref (ctx : FlattenCtx) (name value : Bytes)
    (dontCompress : Bool) : FlattenCtx :=
  { ctx with
    headersBuf := ctx.headersBuf ++
      flattenString (0x20 ||| (if dontCompress then 0x10 else 0))
        name 3 false ++
      flattenString unsetOctet value 7 dontCompress }

/-- Whether `do_flatten_header` adds the field to the dynamic table. -/
def insertsEntry (q : Encoder) (staticIndex dynamicIndex : Int)
    (likelyToRepeat : Bool) (name : Name) (value : Bytes) : Bool :=
  likelyToRepeat && ((staticIndex < 0 && dynamicIndex < 0) || 8 ≤
    value.length) &&
    (name.bytes.length + value.length + headerEntrySizeOffset ≤
      q.table.maxSize - q.table.numBytes)

/-- The instruction for a field that is added. -/
def emitInsert (buf : Bytes) (staticIndex dynamicIndex : Int) (name : Name)
    (value : Bytes) : Bytes :=
  if staticIndex ≥ 0 then emitInsertWithNameref buf true staticIndex value
  else if dynamicIndex ≥ 0 then
    emitInsertWithNameref buf false dynamicIndex value
  else emitInsertWithoutNameref buf name.bytes value

/-- The end of `do_flatten_header`: a literal. -/
def flattenLiteral (ctx : FlattenCtx) (staticIndex dynamicIndex : Int)
    (name : Name) (value : Bytes) (dontCompress : Bool) : FlattenCtx :=
  if staticIndex ≥ 0 then
    flattenStaticNameref ctx staticIndex value dontCompress
  else if dynamicIndex ≥ 0 then
    flattenDynamicNameref ctx dynamicIndex value dontCompress
  else flattenWithoutNameref ctx name.bytes value dontCompress

/-- `do_flatten_header`. -/
def doFlattenHeader (ctx : FlattenCtx) (staticIndex : Int) (isExact : Bool)
    (likelyToRepeat : Bool) (name : Name) (value : Bytes)
    (dontCompress : Bool) : Except Fault FlattenCtx :=
  if staticIndex ≥ 0 ∧ isExact then .ok (flattenStaticIndexed ctx staticIndex)
  else
    match ctx.qpack with
    | none => .ok (flattenLiteral ctx staticIndex (-1) name value dontCompress)
    | some q =>
      match lookupDynamic q name value ctx.encoderBuf.isNone with
      | .error e => .error e
      | .ok (dynamicIndex, isExact) =>
        if dynamicIndex ≥ 0 ∧ isExact then
          .ok (flattenDynamicIndexed ctx dynamicIndex)
        else
          match ctx.encoderBuf with
          | none =>
            .ok (flattenLiteral ctx staticIndex dynamicIndex name value
              dontCompress)
          | some buf =>
            if insertsEntry q staticIndex dynamicIndex likelyToRepeat name
              value then
              let table := q.table.insert ⟨name, value, .none⟩
              .ok (flattenDynamicIndexed { ctx with
                  qpack := some { q with table := table }
                  encoderBuf :=
                    some (emitInsert buf staticIndex dynamicIndex name value) }
                (table.totalInserts - 1))
            else
              .ok (flattenLiteral ctx staticIndex dynamicIndex name value
                dontCompress)

/-- A call of `flatten_static_indexed` or `do_flatten_header`: what a section
is built from. -/
inductive Call where
  | staticIndexed (index : Nat)
  | header (staticIndex : Int) (isExact likelyToRepeat : Bool) (name : Name)
      (value : Bytes) (dontCompress : Bool)

def Call.run (ctx : FlattenCtx) : Call → Except Fault FlattenCtx
  | staticIndexed index => .ok (flattenStaticIndexed ctx index)
  | header staticIndex isExact likelyToRepeat name value dontCompress =>
    doFlattenHeader ctx staticIndex isExact likelyToRepeat name value
      dontCompress

/-- `flatten_header`. -/
def flattenHeader (header : Header) : Call :=
  match header.name with
  | .token t =>
    let r := qpackLookupStatic t header.value
    .header r.1 r.2 t.entry.likelyToRepeat header.name header.value
      header.dontCompress
  | .buf _ =>
    .header (-1) false false header.name header.value header.dontCompress

/-- `flatten_known_header_with_static_lookup`. -/
def flattenKnownHeaderWithStaticLookup (name : Token) (value : Bytes) : Call :=
  let r := qpackLookupStatic name value
  .header r.1 r.2 name.entry.likelyToRepeat (.token name) value false

/-- `prepare_flatten`. -/
def prepareFlatten (qpack : Option Encoder) (streamId : Int64)
    (encoderBuf : Option Bytes) : FlattenCtx where
  qpack := qpack
  streamId := streamId
  encoderBuf :=
    match qpack with
    | some q => if q.numBlocked < q.maxBlocked then encoderBuf else none
    | none => none
  headersBuf := []
  baseIndex :=
    match qpack with
    | some q => q.table.totalInserts - 1
    | none => 0
  largestRef := 0

/-- The prefix of a field section. -/
def sectionPrefix (largestRef baseIndex : Int) : Bytes :=
  flattenInt 0 (if largestRef ≠ 0 then Int.bmod (largestRef + 1) (2 ^ 64)
    else 0) 8 ++
    if largestRef ≤ baseIndex then flattenInt 0 (baseIndex - largestRef) 7
    else flattenInt 0x80 (largestRef - baseIndex - 1) 7

/-- `finalize_flatten`: the encoder and the field section. -/
def finalizeFlatten (ctx : FlattenCtx) :
    Except Fault (Option Encoder × Bytes) :=
  if ctx.largestRef = 0 then .ok (ctx.qpack,
    sectionPrefix 0 0 ++ ctx.headersBuf)
  else
    match ctx.qpack with
    | none => .error .outOfBounds
    | some q =>
      let known := q.largestKnownReceived.toInt
      let isBlocking := decide (ctx.largestRef > known)
      let largestRef :=
        if ctx.largestRef < known then known else ctx.largestRef
      if isBlocking ∧ ¬ q.numBlocked < q.maxBlocked then
        .error .assertNumBlocked
      else
        .ok (some { q with
            numBlocked := if isBlocking then q.numBlocked + 1 else q.numBlocked
            inflight := q.inflight ++ [⟨ctx.streamId, Int64.ofInt largestRef,
                if isBlocking then 1 else 0⟩] },
          sectionPrefix largestRef ctx.baseIndex ++ ctx.headersBuf)

-- ==== requests and responses

/-- The arguments of `h2o_qpack_flatten_request`. -/
structure Request where
  method : Bytes
  scheme : Scheme
  authority : Bytes
  path : Bytes
  protocol : Option Bytes
  headers : List Header
  datagramFlowId : Option Bytes

/-- The arguments of `h2o_qpack_flatten_response`; a `server_name` that is
`NULL` is empty here, and `SIZE_MAX` is no content length. -/
structure Response where
  status : Nat
  headers : List Header
  serverName : Bytes
  contentLength : Option Nat
  datagramFlowId : Option Bytes

/-- A `CONNECT` request that is not an extended one. -/
def Request.oldStyleConnect (r : Request) : Bool :=
  r.method == ascii "CONNECT" && r.protocol.isNone

/-- The two schemes compared by address are in the static table. -/
def schemeCall : Scheme → Call
  | .http => .staticIndexed 22
  | .https => .staticIndexed 23
  | .other name => flattenKnownHeaderWithStaticLookup .scheme name

/-- The calls of `h2o_qpack_flatten_request` in order. -/
def Request.calls (r : Request) : List Call :=
  [flattenKnownHeaderWithStaticLookup .method r.method] ++
  (if r.oldStyleConnect then [] else [schemeCall r.scheme]) ++
  [flattenKnownHeaderWithStaticLookup .authority r.authority] ++
  (if r.oldStyleConnect then []
    else [flattenKnownHeaderWithStaticLookup .path r.path]) ++
  (r.protocol.map (flattenKnownHeaderWithStaticLookup .protocol)).toList ++
  r.headers.map flattenHeader ++
  (r.datagramFlowId.map
    (flattenKnownHeaderWithStaticLookup .datagramFlowId)).toList

/-- The status codes with an entry in the static table (`INDEXED_STATUS`). -/
def indexedStatus : List (Nat × Nat) := [
  (24, 103), (25, 200), (26, 304), (27, 404), (28, 503), (63, 100), (64, 204),
  (65, 206), (66, 302), (67, 400), (68, 403), (69, 421), (70, 425), (71, 500)]

/-- The `switch` on the status code. -/
def statusCall (status : Nat) : Call :=
  match indexedStatus.find? fun e => e.2 == status with
  | some e => .staticIndexed e.1
  | none =>
    .header 24 false Token.status.entry.likelyToRepeat (.token .status)
      (decimal (status % 2 ^ 16)) false

def contentLengthCall (contentLength : Nat) : Call :=
  if contentLength = 0 then .staticIndexed 4
  else
    .header 4 false Token.contentLength.entry.likelyToRepeat
      (.token .contentLength) (decimal contentLength) false

/-- The calls of `h2o_qpack_flatten_response` in order. -/
def Response.calls (r : Response) : List Call :=
  [statusCall r.status] ++
  (if r.serverName ≠ [] then
    [.header 92 false Token.server.entry.likelyToRepeat (.token .server)
      r.serverName false]
    else []) ++
  (r.contentLength.map contentLengthCall).toList ++
  r.headers.map flattenHeader ++
  (r.datagramFlowId.map
    (flattenKnownHeaderWithStaticLookup .datagramFlowId)).toList

/-- What the two functions leave behind: the encoder, the encoder stream (if
the caller passed one) and the field section. -/
structure Flattened where
  qpack : Option Encoder
  encoderBuf : Option Bytes
  fieldSection : Bytes

/-- `prepare_flatten`, the calls, `finalize_flatten`. -/
def flatten (qpack : Option Encoder) (streamId : Int64)
    (encoderBuf : Option Bytes) (calls : List Call) : Except Fault Flattened :=
  match calls.foldlM Call.run (prepareFlatten qpack streamId encoderBuf) with
  | .error e => .error e
  | .ok ctx =>
    match finalizeFlatten ctx with
    | .error e => .error e
    | .ok (qpack, fieldSection) =>
      .ok ⟨qpack, ctx.encoderBuf.or encoderBuf, fieldSection⟩

/-- `h2o_qpack_flatten_request`. -/
def flattenRequest (qpack : Option Encoder) (streamId : Int64)
    (encoderBuf : Option Bytes) (r : Request) : Except Fault Flattened :=
  flatten qpack streamId encoderBuf r.calls

/-- `h2o_qpack_flatten_response`. -/
def flattenResponse (qpack : Option Encoder) (streamId : Int64)
    (encoderBuf : Option Bytes) (r : Response) : Except Fault Flattened :=
  flatten qpack streamId encoderBuf r.calls

end H2o.Qpack
