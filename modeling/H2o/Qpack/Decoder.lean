/-
The QPACK decoder (`lib/http3/qpack.c`): the instructions of the encoder
stream, the list of blocked streams, and field sections.

# The encoder stream

`handleInput` is `h2o_qpack_decoder_handle_input`. It runs whole instructions
and leaves an incomplete one in the input for the next call. Then it reports
the streams that are no longer blocked.

# Blocked streams

A field section that refers to entries not yet received is linked into a list
sorted by largest reference. The reported ids are written over the beginning
of that list, three words an entry, and the entries reported are only removed
at the start of the next call. The list here has the source's memory layout in
so far as these two steps depend on it (`Blocked.words`, `storeWord`).

# Field sections

`parseDecodeContext` reads the section prefix, `decodeHeader` one field line.
-/
import H2o.Qpack.Table

namespace H2o.Qpack

open Hpack

-- ==== state

/-- `struct st_h2o_qpack_blocked_streams_t`. -/
structure Blocked where
  streamId : Int
  largestRef : Int
  flags : Int
deriving DecidableEq

/-- `struct st_h2o_qpack_decoder_t`. -/
structure Decoder where
  table : HeaderTable
  headerTableSize : Nat
  maxEntries : Nat
  insertCount : Nat
  totalInserts : Nat
  maxBlocked : Nat
  blocked : List Blocked
  numUnblocked : Nat

/-- `h2o_qpack_create_decoder`. -/
def Decoder.create (headerTableSize : UInt32) (maxBlocked : UInt16) :
    Decoder where
  table := .init headerTableSize.toNat
  headerTableSize := headerTableSize.toNat
  maxEntries := headerTableSize.toNat / 32
  insertCount := 0
  totalInserts := 0
  maxBlocked := maxBlocked.toNat
  blocked := []
  numUnblocked := 0

-- ==== encoder stream instructions

/-- `decode_value`. -/
def decodeValue (soft : SoftErrors) (isHuff : Bool) (src : Bytes) :
    Except (Option Hpack.ErrDesc) (Bytes × SoftErrors) :=
  if isHuff then decodeHuffman soft src false
  else .ok (src, validateHeaderValue soft src)

/-- `decoder_insert`; `insert_count` is a `uint32_t`. -/
def decoderInsert (d : Decoder) (added : Entry) : Decoder :=
  { d with
    insertCount := (d.insertCount + 1) % 2 ^ 32
    totalInserts := d.totalInserts + 1
    table := d.table.insert added }

/-- `decode_value_and_insert`, of which `insert_token_header` and
`insert_literal_header` are the two ways to allocate the entry. -/
def decodeValueAndInsert (d : Decoder) (name : Name) (soft : SoftErrors)
    (isHuff : Bool) (qstr : Bytes) : Except Error Decoder :=
  match decodeValue soft isHuff qstr with
  | .error e => .error (.qpackDecompressionFailed (e.map .hpack))
  | .ok (value, soft) =>
    let header : Entry := ⟨name, value, soft⟩
    if header.size > d.table.maxSize then
      .error (.qpackDecompressionFailed (some .headerExceedsTableSize))
    else .ok (decoderInsert d header)

/-- `insert_with_name_reference`. -/
def insertWithNameReference (d : Decoder) (nameIsStatic : Bool)
    (nameIndex : Nat) (valueIsHuff : Bool) (value : Bytes) :
    Except Error Decoder :=
  if nameIsStatic then
    match resolveStaticAbs nameIndex with
    | none => .error (.qpackDecompressionFailed (some .invalidStaticReference))
    | some ref => decodeValueAndInsert d (.token ref.1) .none valueIsHuff value
  else
    let baseIndex := d.table.totalInserts - 1
    if nameIndex > baseIndex then
      .error (.qpackDecompressionFailed (some .invalidDynamicReference))
    else
      match d.table.resolveDynamicAbs (baseIndex - nameIndex) with
      | none =>
        .error (.qpackDecompressionFailed (some .invalidDynamicReference))
      | some ref =>
        if ref.name.isToken then
          decodeValueAndInsert d ref.name .none valueIsHuff value
        else
          decodeValueAndInsert d ref.name ⟨ref.softErrors.invalidName,
            false⟩ valueIsHuff value

/-- `insert_without_name_reference`. -/
def insertWithoutNameReference (d : Decoder) (qnhuff : Bool) (qn : Bytes)
    (qvhuff : Bool) (qv : Bytes) : Except Error Decoder :=
  let decoded : Except (Option Hpack.ErrDesc) (Bytes × SoftErrors) :=
    if qnhuff then decodeHuffman .none qn true
    else
      match validateHeaderName .none qn with
      | .error e => .error (some e)
      | .ok soft => .ok (qn, soft)
  match decoded with
  | .error e => .error (.qpackDecompressionFailed (e.map .hpack))
  | .ok (name, soft) =>
    match lookupToken name with
    | some token => decodeValueAndInsert d (.token token) .none qvhuff qv
    | none => decodeValueAndInsert d (.buf name) soft qvhuff qv

/-- `duplicate`. -/
def duplicate (d : Decoder) (index : Nat) : Except Error Decoder :=
  match d.table.entries.reverse[index]? with
  | none => .error (.qpackDecompressionFailed (some .invalidDuplicate))
  | some header => .ok (decoderInsert d header)

/-- `dynamic_table_size_update`. -/
def dynamicTableSizeUpdate (d : Decoder) (maxSize : Nat) :
    Except Error Decoder :=
  if maxSize > d.headerTableSize then
    .error (.qpackDecompressionFailed (some .invalidMaxSize))
  else
    .ok { d with table := HeaderTable.evict { d.table with
      maxSize := maxSize } 0 }

/-- The case of an insert without name reference; `b` is the first octet. -/
def instructionWithoutNameReference (d : Decoder) (b : UInt8) (src : Bytes) :
    Except Error (Decoder × Bytes) := do
  let nameIsHuff := b &&& 0x20 != 0
  let (nameLen, src) ← decodeInt src 5
  match src.drop nameLen with
  | [] => .error .incomplete
  | v :: _ => do
      let valueIsHuff := v &&& 0x80 != 0
      let name := src.take nameLen
      let (valueLen, src) ← decodeInt (src.drop nameLen) 7
      if valueLen ≤ src.length then
        let d ← insertWithoutNameReference d nameIsHuff name valueIsHuff
            (src.take valueLen)
        return (d, src.drop valueLen)
      else .error .incomplete

/-- The case of an insert with name reference. -/
def instructionWithNameReference (d : Decoder) (b : UInt8) (src : Bytes) :
    Except Error (Decoder × Bytes) := do
  let nameIsStatic := b &&& 0x40 != 0
  let (nameIndex, src) ← decodeInt src 6
  match src with
  | [] => .error .incomplete
  | v :: _ => do
      let valueIsHuff := v &&& 0x80 != 0
      let (valueLen, src) ← decodeInt src 7
      if valueLen ≤ src.length then
        let d ← insertWithNameReference d nameIsStatic nameIndex valueIsHuff
            (src.take valueLen)
        return (d, src.drop valueLen)
      else .error .incomplete

/-- One round of the loop of `h2o_qpack_decoder_handle_input`: the decoder and
the rest of the input. Reading past what has arrived is `Error.incomplete`. -/
def instruction (d : Decoder) (src : Bytes) : Except Error (Decoder × Bytes) :=
  match src with
  | [] => .error .incomplete
  | b :: _ =>
    match b.toNat / 32 with
    | 0 => do
        let (index, src) ← decodeInt src 5
        return (← duplicate d index, src)
    | 1 => do
        let (maxSize, src) ← decodeInt src 5
        return (← dynamicTableSizeUpdate d maxSize, src)
    | 2 | 3 => instructionWithoutNameReference d b src
    | _ => instructionWithNameReference d b src

/-- The loop: the decoder after the last instruction that succeeded, and the
input left or the error that ended it. Each instruction takes an octet or
more, so that the length of the input bounds the rounds. -/
def instructions : Nat → Decoder → Bytes → Decoder × Except Error Bytes
  | 0, d, src => (d, .ok src)
  | n + 1, d, src =>
    if src = [] then (d, .ok src)
    else
      match instruction d src with
      | .ok (d, src) => instructions n d src
      | .error .incomplete => (d, .ok src)
      | .error e => (d, .error e)

-- ==== blocked streams

/-- Word `k` of the memory of the list, three words an entry. -/
def loadWord (entries : List Blocked) (k : Nat) : Int :=
  let e := entries.getD (k / 3) ⟨0, 0, 0⟩
  if k % 3 = 0 then e.streamId else if k % 3 = 1 then e.largestRef else e.flags

def storeWord (entries : List Blocked) (k : Nat) (v : Int) : List Blocked :=
  entries.modify (k / 3) fun e =>
    if k % 3 = 0 then { e with streamId := v }
    else if k % 3 = 1 then { e with largestRef := v }
    else { e with flags := v }

/-- The position at which `decoder_link_blocked` inserts, searched from the
end. -/
def linkPosition (entries : List Blocked) (largestRef : Int) : Nat → Nat
  | 0 => 0
  | i + 1 =>
    if (entries.getD i ⟨0, 0, 0⟩).largestRef ≤ largestRef then i + 1
    else linkPosition entries largestRef i

/-- `decoder_link_blocked`. -/
def decoderLinkBlocked (d : Decoder) (streamId largestRef : Int) : Decoder :=
  { d with
    blocked := d.blocked.insertIdx
      (linkPosition d.blocked largestRef d.blocked.length)
      ⟨streamId, largestRef, 0⟩ }

/-- The entries reported by the last call are removed. The source moves as
many entries as remain, from the position of that number; `none` when this
reads past the list. -/
def removeUnblocked (d : Decoder) : Option Decoder :=
  if d.numUnblocked ≠ 0 then
    let remaining := d.blocked.length - d.numUnblocked
    if remaining + remaining ≤ d.blocked.length then
      some { d with
        blocked := (d.blocked.drop remaining).take remaining
        numUnblocked := 0 }
    else none
  else some d

/-- The loop that counts the streams no longer blocked and writes their ids
over the list. The comparison is one of `uint64_t`. -/
def unblockLoop (totalInserts : Nat) :
    Nat → Nat → List Blocked → List Blocked × Nat
  | 0, k, entries => (entries, k)
  | n + 1, k, entries =>
    let e := entries.getD k ⟨0, 0, 0⟩
    if e.largestRef % 2 ^ 64 > totalInserts then (entries, k)
    else unblockLoop totalInserts n (k + 1) (storeWord entries k e.streamId)

/-- `h2o_qpack_decoder_handle_input`: the decoder, and the input left with the
ids of the streams no longer blocked, or the error. -/
def handleInput (d : Decoder) (src : Bytes) :
    Option (Decoder × Except Error (Bytes × List Int)) :=
  (removeUnblocked d).map fun d =>
    match instructions src.length d src with
    | (d, .error e) => (d, .error e)
    | (d, .ok rest) =>
      let r := unblockLoop d.totalInserts d.blocked.length 0 d.blocked
      ({ d with blocked := r.1, numUnblocked := r.2 },
        .ok (rest, (List.range r.2).map (loadWord r.1)))

-- ==== field sections

/-- `struct st_h2o_qpack_decode_header_ctx_t`. -/
structure DecodeCtx where
  reqInsertCount : Nat
  baseIndex : Nat
deriving DecidableEq

/-- `PTLS_QUICINT_MAX`. -/
def quicintMax : Nat := 2 ^ 62 - 1

/-- The Required Insert Count from its encoding (RFC 9204 §4.5.1.1), a sum of
an `int64_t` and a `uint64_t` that is stored in an `int64_t`. -/
def decodeReqInsertCount (d : Decoder) (encoded : Nat) : Option Nat :=
  if encoded > 0 then
    if d.maxEntries = 0 then none
    else
      let fullRange := 2 * d.maxEntries
      let maxValue := d.totalInserts + d.maxEntries
      let rounded := maxValue / fullRange * fullRange
      let req := Int.bmod (encoded + rounded - 1) (2 ^ 64)
      if req % 2 ^ 64 > maxValue then
        if req ≤ fullRange then none
        else checkReqInsertCount (req - fullRange)
      else checkReqInsertCount req
  else some 0
where
  checkReqInsertCount (req : Int) : Option Nat :=
    if req = 0 ∨ req > quicintMax then none else some req.toNat

/-- `parse_decode_context`. -/
def parseDecodeContext (d : Decoder) (streamId : Int) (src : Bytes) :
    Decoder × Except Error (DecodeCtx × Bytes) :=
  let failed : Error := .qpackDecompressionFailed none
  match decodeInt src 8 with
  | .error _ => (d, .error failed)
  | .ok (encoded, src) =>
  match decodeReqInsertCount d encoded with
  | none => (d, .error failed)
  | some reqInsertCount =>
  match src with
  | [] => (d, .error failed)
  | b :: _ =>
  match decodeInt src 7 with
  | .error _ => (d, .error failed)
  | .ok (deltaBase, src) =>
    let baseIndex : Int :=
      if b &&& 0x80 = 0 then reqInsertCount + deltaBase
      else reqInsertCount - deltaBase - 1
    if deltaBase > quicintMax ∨ baseIndex < 0 then (d, .error failed)
    else if reqInsertCount ≥ d.table.totalInserts then
      -- the section is blocked
      if d.blocked.length + 1 ≥ d.maxBlocked then (d, .error failed)
      else (decoderLinkBlocked d streamId reqInsertCount, .error .incomplete)
    else (d, .ok (⟨reqInsertCount, baseIndex.toNat⟩, src))

/-- `resolve_static`. -/
def resolveStatic (src : Bytes) (prefixBits : Nat) :
    Except Error ((Token × Bytes) × Bytes) :=
  let failed : Error :=
    .qpackDecompressionFailed (some .invalidStaticReference)
  match decodeInt src prefixBits with
  | .error _ => .error failed
  | .ok (index, src) =>
    match resolveStaticAbs index with
    | none => .error failed
    | some e => .ok (e, src)

/-- `resolve_dynamic`. -/
def resolveDynamic (t : HeaderTable) (baseIndex : Nat) (src : Bytes)
    (prefixBits : Nat) : Except Error (Entry × Bytes) :=
  let failed : Error :=
    .qpackDecompressionFailed (some .invalidDynamicReference)
  match decodeInt src prefixBits with
  | .error _ => .error failed
  | .ok (off, src) =>
    if off ≥ baseIndex then .error failed
    else
      match t.resolveDynamicAbs (baseIndex - off) with
      | none => .error failed
      | some e => .ok (e, src)

/-- `resolve_dynamic_postbase`. -/
def resolveDynamicPostbase (t : HeaderTable) (baseIndex : Nat) (src : Bytes)
    (prefixBits : Nat) : Except Error (Entry × Bytes) :=
  let failed : Error :=
    .qpackDecompressionFailed (some .invalidDynamicReference)
  match decodeInt src prefixBits with
  | .error _ => .error failed
  | .ok (off, src) =>
    if off + baseIndex + 1 > int64Max then .error failed
    else
      match t.resolveDynamicAbs (baseIndex + off + 1) with
      | none => .error failed
      | some e => .ok (e, src)

/-- `decode_header_name_literal`: the name, the soft errors, the rest. -/
def decodeHeaderNameLiteral (soft : SoftErrors) (src : Bytes)
    (prefixBits : Nat) : Except Error (Name × SoftErrors × Bytes) :=
  let isHuff := (src.head?.getD 0).toNat / 2 ^ prefixBits % 2 = 1
  match decodeInt src prefixBits with
  | .error _ => .error (.qpackDecompressionFailed (some .headerNameTooLong))
  | .ok (len, src) =>
    if src.length < len then .error (.qpackDecompressionFailed none)
    else if isHuff then
      match decodeHuffman soft (src.take len) true with
      | .error e => .error (.qpackDecompressionFailed (e.map .hpack))
      | .ok (buf, soft) => .ok (.intern buf, soft, src.drop len)
    else
      match lookupToken (src.take len) with
      | some token => .ok (.token token, soft, src.drop len)
      | none =>
        match validateHeaderName soft (src.take len) with
        | .error e => .error (.qpackDecompressionFailed (some (.hpack e)))
        | .ok soft => .ok (.buf (src.take len), soft, src.drop len)

/-- `decode_header_value_literal`: the value, the soft errors, the rest. -/
def decodeHeaderValueLiteral (soft : SoftErrors) (src : Bytes) :
    Except Error (Bytes × SoftErrors × Bytes) :=
  match src with
  | [] => .error (.qpackDecompressionFailed none)
  | b :: _ =>
    match decodeInt src 7 with
    | .error _ => .error (.qpackDecompressionFailed (some .headerValueTooLong))
    | .ok (len, src) =>
      if src.length < len then .error (.qpackDecompressionFailed none)
      else
        match decodeValue soft (b &&& 0x80 != 0) (src.take len) with
        | .error e => .error (.qpackDecompressionFailed (e.map .hpack))
        | .ok (value, soft) => .ok (value, soft, src.drop len)

/-- A decoded field line. The last field is the description of a soft error,
with which the source returns `H2O_HTTP2_ERROR_INVALID_HEADER_CHAR`. -/
structure Decoded where
  name : Name
  value : Bytes
  err : Option Hpack.ErrDesc
deriving DecidableEq

/-- The return of `decode_header` from the soft errors. -/
def Decoded.ofSoft (name : Name) (value : Bytes) (soft : SoftErrors) :
    Decoded :=
  ⟨name, value,
    if soft.invalidName then some .softFoundInvalidCharInHeaderName
    else if soft.invalidValue then some .softFoundInvalidCharInHeaderValue
    else none⟩

/-- `decode_header`. The callers pass a non-empty input; the source would read
past its end otherwise. -/
def decodeHeader (t : HeaderTable) (ctx : DecodeCtx) (src : Bytes) :
    Except Error (Decoded × Bytes) := do
  match (src.head?.getD 0).toNat / 16 with
  | 12 | 13 | 14 | 15 =>
    let (entry, src) ← resolveStatic src 6
    return (.ofSoft (.token entry.1) entry.2 .none, src)
  | 8 | 9 | 10 | 11 =>
    let (entry, src) ← resolveDynamic t ctx.baseIndex src 6
    return (.ofSoft entry.name entry.value entry.softErrors, src)
  | 5 | 7 =>
    let (entry, src) ← resolveStatic src 4
    let (value, soft, src) ← decodeHeaderValueLiteral .none src
    return (.ofSoft (.token entry.1) value soft, src)
  | 4 | 6 =>
    let (entry, src) ← resolveDynamic t ctx.baseIndex src 4
    let (value, soft, src) ←
      decodeHeaderValueLiteral ⟨entry.softErrors.invalidName, false⟩ src
    return (.ofSoft entry.name value soft, src)
  | 2 | 3 =>
    let (name, soft, src) ← decodeHeaderNameLiteral .none src 3
    let (value, soft, src) ← decodeHeaderValueLiteral soft src
    return (.ofSoft name value soft, src)
  | 1 =>
    let (entry, src) ← resolveDynamicPostbase t ctx.baseIndex src 4
    return (.ofSoft entry.name entry.value entry.softErrors, src)
  | _ =>
    let (entry, src) ← resolveDynamicPostbase t ctx.baseIndex src 3
    let (value, soft, src) ←
      decodeHeaderValueLiteral ⟨entry.softErrors.invalidName, false⟩ src
    return (.ofSoft entry.name value soft, src)

/-- The field lines up to the end of the section, as the parsers of
`lib/http2/hpack.c` read them. -/
def decodeHeaders (t : HeaderTable) (ctx : DecodeCtx) :
    Nat → Bytes → Except Error (List Decoded)
  | 0, _ => .ok []
  | n + 1, src =>
    if src = [] then .ok []
    else
      match decodeHeader t ctx src with
      | .error e => .error e
      | .ok (h, src) =>
        match decodeHeaders t ctx n src with
        | .error e => .error e
        | .ok hs => .ok (h :: hs)

end H2o.Qpack
