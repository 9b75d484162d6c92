/-
The HPACK table as `lib/http2/hpack.c` lays it out, and the functions that use
it.

`h2o_hpack_header_table_t` is a ring of slots; an entry that is not there has
a name that is `NULL`, and is `none` here. The assertions of the table are the
faults. What the decoder and the encoder need of a table is a record of
operations (`TableOps`), so that one text of them runs on the ring and on the
list of `HeaderTable`. Unlike `decodeHeader`, the decoder here leaves a table
when it fails too: the updates of the capacity before an error stay.
-/
import H2o.Hpack.Decode
import H2o.Hpack.Encode
import H2o.Lib.Ring

namespace H2o.Hpack

open Lib

/-- The assertions of the table. -/
inductive TableFault where
  /-- `table->num_entries != 0` in `header_table_evict_one`. -/
  | noEntries
  /-- `entry->name != NULL` in `h2o_hpack_header_table_get`, and the same of an
  entry that is read without the assertion. -/
  | nullName
  /-- `table->hpack_size == 0` in `header_table_add`. -/
  | sizeNotZero
deriving DecidableEq

/-- `h2o_hpack_header_table_t`; `entries` has `entry_capacity` slots. -/
structure RingTable where
  entries : List (Option Entry)
  entryStartIndex : Nat
  numEntries : Nat
  hpackSize : Nat
  hpackCapacity : Nat
  hpackMaxCapacity : Nat
deriving DecidableEq

namespace RingTable

/-- A table that is zeroed but for its capacities. -/
def create (hpackCapacity hpackMaxCapacity : Nat) : RingTable :=
  ⟨[], 0, 0, 0, hpackCapacity, hpackMaxCapacity⟩

def entryCapacity (r : RingTable) : Nat := r.entries.length

/-- `h2o_hpack_header_table_get`. -/
def get (r : RingTable) (index : Nat) : Except TableFault Entry :=
  match r.entries[(index + r.entryStartIndex) % r.entryCapacity]? with
  | some (some e) => .ok e
  | _ => .error .nullName

/-- `header_table_evict_one`. -/
def evictOne (r : RingTable) : Except TableFault RingTable :=
  if r.numEntries = 0 then .error .noEntries
  else
    match r.get (r.numEntries - 1) with
    | .error fault => .error fault
    | .ok e =>
      .ok { r with
        numEntries := r.numEntries - 1
        hpackSize := r.hpackSize - e.size
        entries := r.entries.set ((r.numEntries - 1 + r.entryStartIndex) %
          r.entryCapacity) none }

/-- `while (num_entries != 0 && hpack_size + size_add > hpack_capacity)`, over
at most `n` entries. -/
def evictLoop (sizeAdd : Nat) : Nat → RingTable → Except TableFault RingTable
  | 0, r => .ok r
  | n + 1, r =>
    if r.numEntries ≠ 0 ∧ r.hpackSize + sizeAdd > r.hpackCapacity then
      r.evictOne >>= evictLoop sizeAdd n
    else .ok r

def evict (r : RingTable) (sizeAdd : Nat) : Except TableFault RingTable :=
  evictLoop sizeAdd r.numEntries r

/-- `while (max_num_entries <= num_entries)`, in at most `n` rounds. -/
def limitLoop (maxNumEntries : Nat) :
    Nat → RingTable → Except TableFault RingTable
  | 0, r => .ok r
  | n + 1, r =>
    if maxNumEntries ≤ r.numEntries then
      r.evictOne >>= limitLoop maxNumEntries n
    else .ok r

/-- The second loop of `header_table_add`; `none` is `SIZE_MAX`. -/
def limit (r : RingTable) : Option Nat → Except TableFault RingTable
  | none => .ok r
  | some n => limitLoop n (r.numEntries + 1) r

/-- The entries are copied, from the first one on, when all slots are in
use. -/
def grow (r : RingTable) : RingTable :=
  if r.numEntries = r.entryCapacity then
    let newCapacity := max (r.numEntries * 2) 16
    { r with
      entries := unroll r.entries r.numEntries r.entryStartIndex ++
        List.replicate (newCapacity - r.numEntries) none
      entryStartIndex := 0 }
  else r

/-- `header_table_add` behind its loops, and the assignments of its callers to
the slot it returns, if it does. -/
def insert (r : RingTable) (e : Entry) : Except TableFault RingTable :=
  if r.numEntries = 0 ∧ r.hpackSize ≠ 0 then .error .sizeNotZero
  else if r.numEntries = 0 ∧ e.size > r.hpackCapacity then .ok r
  else
    let r := { r with hpackSize := r.hpackSize + e.size }.grow
    let slot := (r.entryStartIndex + r.entryCapacity - 1) % r.entryCapacity
    .ok { r with
      numEntries := r.numEntries + 1
      entryStartIndex := slot
      entries := r.entries.set slot (some e) }

/-- `header_table_add`. -/
def add (r : RingTable) (e : Entry) (maxNumEntries : Option Nat) :
    Except TableFault RingTable := do
  let r ← r.evict e.size
  let r ← r.limit maxNumEntries
  r.insert e

/-- A new capacity, and the loop that follows it. -/
def resize (r : RingTable) (newCapacity : Nat) : Except TableFault RingTable :=
  evict { r with hpackCapacity := newCapacity } 0

/-- The slots that the search of `do_encode_header` goes through. -/
def scanLoop (slots : List (Option Entry)) : Nat → Nat → List (Option Entry)
  | 0, _ => []
  | n + 1, index =>
    slots.getD index none ::
      scanLoop slots n (if index + 1 = slots.length then 0 else index + 1)

/-- The entries that the search goes through, up to one that is not there. -/
def scan (r : RingTable) : Except TableFault (List Entry) :=
  (scanLoop r.entries r.numEntries r.entryStartIndex).mapM fun
    | some e => .ok e
    | none => .error .nullName

end RingTable

-- ==== operations

/-- What the decoder and the encoder do with a table. -/
structure TableOps (σ : Type) where
  numEntries : σ → Nat
  hpackCapacity : σ → Nat
  hpackMaxCapacity : σ → Nat
  get : σ → Nat → Except TableFault Entry
  scan : σ → Except TableFault (List Entry)
  add : σ → Entry → Option Nat → Except TableFault σ
  resize : σ → Nat → Except TableFault σ

def ringOps : TableOps RingTable where
  numEntries := RingTable.numEntries
  hpackCapacity := RingTable.hpackCapacity
  hpackMaxCapacity := RingTable.hpackMaxCapacity
  get := RingTable.get
  scan := RingTable.scan
  add := RingTable.add
  resize := RingTable.resize

/-- The operations of the reference, a list with the newest entry first. -/
def listOps : TableOps HeaderTable where
  numEntries t := t.entries.length
  hpackCapacity := HeaderTable.hpackCapacity
  hpackMaxCapacity := HeaderTable.hpackMaxCapacity
  get t index :=
    match t.entries[index]? with
    | some e => .ok e
    | none => .error .nullName
  scan t := .ok t.entries
  add t e maxNumEntries := .ok (t.add e maxNumEntries)
  resize t newCapacity := .ok (t.resize newCapacity)

namespace TableOps

variable {σ : Type} (ops : TableOps σ)

-- ==== decoder

/-- As `lookupIndex`. -/
def lookupIndex (s : σ) (r : Representation) :
    Except TableFault (Except Error (Name × Option Bytes × SoftErrors)) :=
  if r.index < headerTableOffset then
    match hpackStaticTable[r.index - 1]? with
    | none => .ok (.error .compression)
    | some (token, value) =>
      .ok (.ok (.token token,
        if r.valueIsIndexed then some (ascii value) else none, .none))
  else if r.index - headerTableOffset < ops.numEntries s then
    match ops.get s (r.index - headerTableOffset) with
    | .error fault => .error fault
    | .ok e =>
      .ok (.ok (e.name, if r.valueIsIndexed then some e.value else none,
        e.softErrors))
  else .ok (.error .compression)

/-- As `determineName`. -/
def determineName (s : σ) (r : Representation) (src : Bytes) :
    Except TableFault (Except Error
      (Name × Option Bytes × SoftErrors × Bytes)) :=
  if r.index > 0 then
    match ops.lookupIndex s r with
    | .error fault => .error fault
    | .ok (.error e) => .ok (.error e)
    | .ok (.ok (name, value, soft)) => .ok (.ok (name, value, soft, src))
  else
    match decodeString .none src true with
    | .error (some .foundUpperCaseInHeaderName) => .ok (.error .protocol)
    | .error _ => .ok (.error .compression)
    | .ok (name, soft, src) => .ok (.ok (.intern name, none, soft, src))

/-- As `decodeField`, with the table that is left by an error too. -/
def decodeField (s : σ) (r : Representation) (src : Bytes) :
    Except TableFault (σ × Except Error (Decoded × Bytes)) :=
  match ops.determineName s r src with
  | .error fault => .error fault
  | .ok (.error e) => .ok (s, .error e)
  | .ok (.ok (name, some value, soft, src)) =>
    .ok (s, .ok (⟨name, value, soft⟩, src))
  | .ok (.ok (name, none, soft, src)) =>
    match decodeString { soft with invalidValue := false } src false with
    | .error _ => .ok (s, .error .compression)
    | .ok (value, soft, src) =>
      match if r.doIndex then ops.add s ⟨name, value, soft⟩ none
        else .ok s with
      | .error fault => .error fault
      | .ok s => .ok (s, .ok (⟨name, value, soft⟩, src))

/-- As `decodeHeaderLoop`, with the table that is left by an error too. -/
def decodeHeaderLoop :
    Nat → σ → Bytes → Except TableFault (σ × Except Error (Decoded × Bytes))
  | 0, s, _ => .ok (s, .error .compression)
  | _ + 1, s, [] => .ok (s, .error .compression)
  | n + 1, s, b :: rest =>
    if b.toNat ≥ 128 then
      match decodeIndex (b :: rest) 7 with
      | .error e => .ok (s, .error e)
      | .ok (index, src) => ops.decodeField s ⟨index, true, false⟩ src
    else if b.toNat ≥ 64 then
      if b.toNat = 64 then ops.decodeField s ⟨0, false, true⟩ rest
      else
        match decodeIndex (b :: rest) 6 with
        | .error e => .ok (s, .error e)
        | .ok (index, src) => ops.decodeField s ⟨index, false, true⟩ src
    else if b.toNat < 32 then
      if b.toNat % 16 = 0 then ops.decodeField s ⟨0, false, false⟩ rest
      else
        match decodeIndex (b :: rest) 4 with
        | .error e => .ok (s, .error e)
        | .ok (index, src) => ops.decodeField s ⟨index, false, false⟩ src
    else
      match decodeInt (b :: rest) 5 with
      | .error _ => .ok (s, .error .compression)
      | .ok (newCapacity, src) =>
        if newCapacity > ops.hpackMaxCapacity s then
          .ok (s, .error .compression)
        else
          match ops.resize s newCapacity with
          | .error fault => .error fault
          | .ok s => decodeHeaderLoop n s src

/-- `h2o_hpack_decode_header`. -/
def decodeHeader (s : σ) (src : Bytes) :
    Except TableFault (σ × Except Error (Decoded × Bytes)) :=
  ops.decodeHeaderLoop src.length s src

-- ==== encoder

/-- As `doEncodeHeader`. -/
def doEncodeHeader (s : σ) (name : Name) (value : Bytes)
    (dontCompress : Bool) : Except TableFault (σ × Bytes) :=
  match ops.scan s with
  | .error fault => .error fault
  | .ok entries =>
    match searchLoop name value entries 0 (tokenNameIndex name) with
    | (some index, _) => .ok (s, encodeInt 0x80 index 7)
    | (none, nameIndex) =>
      let dontCompress := dontCompress || tokenDontCompress name
      let dontCompress := dontCompress && decide (value.length < 20)
      let head :=
        if nameIndex ≠ 0 then
          if dontCompress then encodeInt 0x10 nameIndex 4
          else encodeInt 0x40 nameIndex 6
        else 0x40 :: encodeString name.bytes
      if dontCompress then .ok (s, head ++ encodeAsIs value)
      else
        match ops.add s ⟨name, value, .none⟩ (some 32) with
        | .error fault => .error fault
        | .ok s => .ok (s, head ++ encodeString value)

/-- As `Call.run`. -/
def runCall (s : σ) : Call → Except TableFault (σ × Bytes)
  | .indexed octet => .ok (s, [octet])
  | .status code => .ok (s, [8, 3] ++ decimal code)
  | .contentLength value =>
    let digits := decimal value
    .ok (s, [0x0f, 0x0d, UInt8.ofNat digits.length] ++ digits)
  | .header name value dontCompress =>
    ops.doEncodeHeader s name value dontCompress

/-- As `adjustSize`. -/
def adjustSize (s : σ) (newCapacity : UInt32) :
    Except TableFault (σ × Bytes) :=
  if newCapacity.toNat ≥ ops.hpackCapacity s then .ok (s, [])
  else
    match ops.resize s newCapacity.toNat with
    | .error fault => .error fault
    | .ok s => .ok (s, encodeInt 0x20 newCapacity.toNat 5)

end TableOps

/-- A use of a table: a header decoded from some octets, a capacity passed to
the encoder, or a call of the encoder that appends a field. -/
inductive TableEvent where
  | decode (src : Bytes)
  | adjustSize (newCapacity : UInt32)
  | call (c : Call)

def TableOps.step {σ : Type} (ops : TableOps σ) (s : σ) (e : TableEvent) :
    Except TableFault σ :=
  match e with
  | .decode src => Prod.fst <$> ops.decodeHeader s src
  | .adjustSize newCapacity => Prod.fst <$> ops.adjustSize s newCapacity
  | .call c => Prod.fst <$> ops.runCall s c

end H2o.Hpack
