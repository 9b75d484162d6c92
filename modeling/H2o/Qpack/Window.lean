/-
The QPACK table as `lib/http3/qpack.c` lays it out, and the decoder's use of
it.

The entries are shared blocks of memory. The table is a buffer of pointers to
them, of which those from `first` to `last` are in use; eviction moves `first`,
and when `last` has come to the end of the buffer the pointers are moved to
its beginning, or to a larger buffer. A `Duplicate` adds a reference to an
entry that the insertion of it may then evict. The assertions, and the uses of
a pointer that is not there or of a block that has been freed, are the faults.

`inserted` is not part of the source: it is every entry `decoder_insert` has
been given, in order, to be compared with what the table resolves.
-/
import H2o.Lib.Shared
import H2o.Qpack.Receive

namespace H2o.Qpack

open Hpack Lib

inductive WindowFault where
  /-- `table->num_bytes == 0` in `header_table_evict`. -/
  | numBytes
  /-- `table->buf_start != table->first` in `header_table_insert`. -/
  | bufStart
  /-- `entry->refcnt != 0` of a shared block, and a read of one without. -/
  | refcnt
  /-- A read of a pointer where there is none. -/
  | nullEntry
  /-- A write at `buf_end`. -/
  | bufEnd
deriving DecidableEq

-- ==== table

/-- `struct st_h2o_qpack_header_table_t`, with the memory of the entries;
`first` and `last` are offsets from `buf_start`. -/
structure WindowTable where
  mem : Shared Entry
  buf : List (Option Nat)
  first : Nat
  last : Nat
  baseOffset : Nat
  numBytes : Nat
  maxSize : Nat

namespace WindowTable

/-- `header_table_init`. -/
def init (maxSize : Nat) : WindowTable := ⟨.empty, [], 0, 0, 1, 0, maxSize⟩

def slot (t : WindowTable) (i : Nat) : Except WindowFault Nat :=
  match t.buf[i]? with
  | some (some p) => .ok p
  | _ => .error .nullEntry

def deref (t : WindowTable) (p : Nat) : Except WindowFault Entry :=
  match t.mem.get p with
  | some e => .ok e
  | none => .error .refcnt

/-- One round of the loop of `header_table_evict`. -/
def evictOne (t : WindowTable) : Except WindowFault WindowTable := do
  let p ← t.slot t.first
  let e ← t.deref p
  match t.mem.release p with
  | none => .error .refcnt
  | some mem =>
    return { t with
      mem := mem
      numBytes := t.numBytes - e.size
      buf := t.buf.set t.first none
      first := t.first + 1
      baseOffset := t.baseOffset + 1 }

/-- The end of `header_table_evict`, when all entries are gone. -/
def evicted (t : WindowTable) : Except WindowFault WindowTable :=
  if t.numBytes = 0 then .ok t else .error .numBytes

/-- The loop of `header_table_evict`, over at most `n` entries. -/
def evictLoop (delta : Nat) :
    Nat → WindowTable → Except WindowFault WindowTable
  | 0, t => t.evicted
  | n + 1, t =>
    if t.first = t.last then t.evicted
    else if t.numBytes + delta ≤ t.maxSize then .ok t
    else t.evictOne >>= evictLoop delta n

/-- `header_table_evict`. -/
def evict (t : WindowTable) (delta : Nat) : Except WindowFault WindowTable :=
  evictLoop delta (t.last - t.first) t

/-- The part of `header_table_insert` that makes room behind `last`. -/
def makeRoom (t : WindowTable) : Except WindowFault WindowTable :=
  if t.last = t.buf.length then
    let count := t.last - t.first
    let newCapacity := if count ≤ 2 then 4 else count * 2
    let moved := (t.buf.drop t.first).take count
    if newCapacity > t.buf.length then
      .ok { t with
        buf := moved ++ List.replicate (newCapacity - count) none
        first := 0
        last := count }
    else if t.first = 0 then .error .bufStart
    else
      .ok { t with
        buf := moved ++ List.replicate (t.buf.length - count) none
        first := 0
        last := count }
  else .ok t

/-- `header_table_insert`. -/
def insert (t : WindowTable) (added : Nat) :
    Except WindowFault WindowTable := do
  let e ← t.deref added
  let t ← t.evict e.size
  let t ← t.makeRoom
  let e ← t.deref added
  if t.last < t.buf.length then
    return { t with
      buf := t.buf.set t.last (some added)
      last := t.last + 1
      numBytes := t.numBytes + e.size }
  else .error .bufEnd

/-- `qpack_table_total_inserts`. -/
def totalInserts (t : WindowTable) : Nat := t.baseOffset + (t.last - t.first)

/-- `resolve_dynamic_abs`. -/
def resolveDynamicAbs (t : WindowTable) (index : Int) :
    Except WindowFault (Option Nat) :=
  if index < t.baseOffset then .ok none
  else if index - t.baseOffset ≥ (t.last - t.first : Nat) then .ok none
  else some <$> t.slot (t.first + (index - t.baseOffset).toNat)

end WindowTable

-- ==== decoder

/-- `struct st_h2o_qpack_decoder_t`, as far as the encoder stream is
concerned. -/
structure WindowDecoder where
  table : WindowTable
  headerTableSize : Nat
  insertCount : Nat
  totalInserts : Nat
  inserted : List Entry

namespace WindowDecoder

/-- `h2o_qpack_create_decoder`. -/
def create (headerTableSize : UInt32) : WindowDecoder :=
  ⟨.init headerTableSize.toNat, headerTableSize.toNat, 0, 0, []⟩

/-- `decoder_insert`, which prints the entry too. -/
def decoderInsert (d : WindowDecoder) (added : Nat) :
    Except WindowFault WindowDecoder := do
  let e ← d.table.deref added
  let table ← d.table.insert added
  return { d with
    insertCount := (d.insertCount + 1) % 2 ^ 32
    totalInserts := d.totalInserts + 1
    table := table
    inserted := d.inserted ++ [e] }

/-- `decode_value_and_insert`. The block of a header that is not inserted is
released before anyone else has seen it, and is left out. -/
def decodeValueAndInsert (d : WindowDecoder) (name : Name) (soft : SoftErrors)
    (isHuff : Bool) (qstr : Bytes) :
    Except WindowFault (Except Error WindowDecoder) :=
  match decodeValue soft isHuff qstr with
  | .error e => .ok (.error (.qpackDecompressionFailed (e.map .hpack)))
  | .ok (value, soft) =>
    let header : Entry := ⟨name, value, soft⟩
    if header.size > d.table.maxSize then
      .ok (.error (.qpackDecompressionFailed (some .headerExceedsTableSize)))
    else
      let (mem, added) := d.table.mem.alloc header
      .ok <$> decoderInsert { d with table := { d.table with mem := mem } }
        added

/-- `insert_with_name_reference`. -/
def insertWithNameReference (d : WindowDecoder) (nameIsStatic : Bool)
    (nameIndex : Nat) (valueIsHuff : Bool) (value : Bytes) :
    Except WindowFault (Except Error WindowDecoder) :=
  if nameIsStatic then
    match resolveStaticAbs nameIndex with
    | none =>
      .ok (.error (.qpackDecompressionFailed (some .invalidStaticReference)))
    | some ref => d.decodeValueAndInsert (.token ref.1) .none valueIsHuff value
  else
    let baseIndex := d.table.totalInserts - 1
    if nameIndex > baseIndex then
      .ok (.error (.qpackDecompressionFailed (some .invalidDynamicReference)))
    else do
      match ← d.table.resolveDynamicAbs (baseIndex - nameIndex : Nat) with
      | none =>
        .ok (.error (.qpackDecompressionFailed
          (some .invalidDynamicReference)))
      | some p =>
        let ref ← d.table.deref p
        if ref.name.isToken then
          d.decodeValueAndInsert ref.name .none valueIsHuff value
        else
          d.decodeValueAndInsert ref.name ⟨ref.softErrors.invalidName,
            false⟩ valueIsHuff value

/-- `insert_without_name_reference`. -/
def insertWithoutNameReference (d : WindowDecoder) (qnhuff : Bool)
    (qn : Bytes) (qvhuff : Bool) (qv : Bytes) :
    Except WindowFault (Except Error WindowDecoder) :=
  let decoded : Except (Option Hpack.ErrDesc) (Bytes × SoftErrors) :=
    if qnhuff then decodeHuffman .none qn true
    else
      match validateHeaderName .none qn with
      | .error e => .error (some e)
      | .ok soft => .ok (qn, soft)
  match decoded with
  | .error e => .ok (.error (.qpackDecompressionFailed (e.map .hpack)))
  | .ok (name, soft) =>
    match lookupToken name with
    | some token => d.decodeValueAndInsert (.token token) .none qvhuff qv
    | none => d.decodeValueAndInsert (.buf name) soft qvhuff qv

/-- `duplicate`. -/
def duplicate (d : WindowDecoder) (index : Nat) :
    Except WindowFault (Except Error WindowDecoder) :=
  if index ≥ d.table.last - d.table.first then
    .ok (.error (.qpackDecompressionFailed (some .invalidDuplicate)))
  else do
    let header ← d.table.slot (d.table.last - index - 1)
    match d.table.mem.addref header with
    | none => .error .refcnt
    | some mem => .ok <$> decoderInsert { d with
      table := { d.table with mem := mem } } header

/-- `dynamic_table_size_update`. -/
def dynamicTableSizeUpdate (d : WindowDecoder) (maxSize : Nat) :
    Except WindowFault (Except Error WindowDecoder) :=
  if maxSize > d.headerTableSize then
    .ok (.error (.qpackDecompressionFailed (some .invalidMaxSize)))
  else do
    let table ← WindowTable.evict { d.table with maxSize := maxSize } 0
    return .ok { d with table := table }

def handleInstruction (d : WindowDecoder) :
    EncoderInstruction → Except WindowFault (Except Error WindowDecoder)
  | .insertWithNameReference nameIsStatic nameIndex valueIsHuff value =>
    d.insertWithNameReference nameIsStatic nameIndex valueIsHuff value
  | .insertWithoutNameReference nameIsHuff name valueIsHuff value =>
    d.insertWithoutNameReference nameIsHuff name valueIsHuff value
  | .duplicate index => d.duplicate index
  | .dynamicTableSizeUpdate maxSize => d.dynamicTableSizeUpdate maxSize

/-- The loop of `h2o_qpack_decoder_handle_input`, in at most `n` rounds: the
decoder, the input left and the error. -/
def instructionLoop : Nat → WindowDecoder → Bytes →
    Except WindowFault (WindowDecoder × Bytes × Option Error)
  | 0, d, src => .ok (d, src, none)
  | n + 1, d, src =>
    match readEncoderInstruction src with
    | .error e => .ok (d, src, if e = .incomplete then none else some e)
    | .ok (i, rest) => do
        match ← d.handleInstruction i with
        | .error e => .ok (d, rest, some e)
        | .ok d => instructionLoop n d rest

/-- `h2o_qpack_decoder_handle_input`, as far as the table is concerned. -/
def handleInput (d : WindowDecoder) (src : Bytes) :
    Except WindowFault WindowDecoder :=
  Prod.fst <$> instructionLoop src.length d src

end WindowDecoder

end H2o.Qpack
