/-
`h2o_hpack_decode_header` (`lib/http2/hpack.c`): one field of a header block.

A block is a string of representations (RFC 7541 §6): an indexed field, a
literal with a name by index or by octets, or an update of the capacity. An
update yields no field; the function goes back to its beginning after it, and
fails if the block ends there.
-/
import H2o.Hpack.Table

namespace H2o.Hpack

/-- The errors of `h2o_hpack_decode_header` other than a soft one
(`H2O_HTTP2_ERROR_COMPRESSION` and `H2O_HTTP2_ERROR_PROTOCOL`). -/
inductive Error where
  | compression
  | protocol
deriving DecidableEq

/-- A field and its soft errors; with any of them the function returns
`H2O_HTTP2_ERROR_INVALID_HEADER_CHAR`. -/
structure Decoded where
  name : Name
  value : Bytes
  softErrors : SoftErrors
deriving DecidableEq

def Decoded.field (d : Decoded) : Bytes × Bytes := (d.name.bytes, d.value)

/-- The representation of a field: its index, or 0, and what is indexed. -/
structure Representation where
  index : Nat
  valueIsIndexed : Bool
  doIndex : Bool

/-- `h2o_hpack_decode_int`, where 0 is an error too. -/
def decodeIndex (src : Bytes) (prefixBits : Nat) :
    Except Error (Nat × Bytes) :=
  match decodeInt src prefixBits with
  | .error _ => .error .compression
  | .ok (index, src) =>
    if index = 0 then .error .compression else .ok (index, src)

/-- The name, the value if it is indexed, and the soft errors of what the
index refers to. -/
def lookupIndex (t : HeaderTable) (r : Representation) :
    Except Error (Name × Option Bytes × SoftErrors) :=
  if r.index < headerTableOffset then
    match hpackStaticTable[r.index - 1]? with
    | none => .error .compression
    | some (token, value) =>
      .ok (.token token, if r.valueIsIndexed then some (ascii value)
        else none, .none)
  else
    match t.entries[r.index - headerTableOffset]? with
    | none => .error .compression
    | some e =>
      .ok (e.name, if r.valueIsIndexed then some e.value else none,
        e.softErrors)

/-- The name of a representation, which is followed by `src`. -/
def determineName (t : HeaderTable) (r : Representation) (src : Bytes) :
    Except Error (Name × Option Bytes × SoftErrors × Bytes) :=
  if r.index > 0 then
    match lookupIndex t r with
    | .error e => .error e
    | .ok (name, value, soft) => .ok (name, value, soft, src)
  else
    match decodeString .none src true with
    | .error (some .foundUpperCaseInHeaderName) => .error .protocol
    | .error _ => .error .compression
    | .ok (name, soft, src) => .ok (.intern name, none, soft, src)

/-- The field of a representation, which is followed by `src`. -/
def decodeField (t : HeaderTable) (r : Representation) (src : Bytes) :
    Except Error (HeaderTable × Decoded × Bytes) :=
  match determineName t r src with
  | .error e => .error e
  | .ok (name, some value, soft, src) =>
    -- an indexed value is never added to the table
    .ok (t, ⟨name, value, soft⟩, src)
  | .ok (name, none, soft, src) =>
    match decodeString { soft with invalidValue := false } src false with
    | .error _ => .error .compression
    | .ok (value, soft, src) =>
      let t := if r.doIndex then t.add ⟨name, value, soft⟩ none else t
      .ok (t, ⟨name, value, soft⟩, src)

/-- `h2o_hpack_decode_header` on at most `n` octets: an update of the capacity
takes at least one. -/
def decodeHeaderLoop :
    Nat → HeaderTable → Bytes → Except Error (HeaderTable × Decoded × Bytes)
  | 0, _, _ => .error .compression
  | _ + 1, _, [] => .error .compression
  | n + 1, t, b :: rest =>
    if b.toNat ≥ 128 then
      -- indexed header field
      match decodeIndex (b :: rest) 7 with
      | .error e => .error e
      | .ok (index, src) => decodeField t ⟨index, true, false⟩ src
    else if b.toNat ≥ 64 then
      -- literal header field with incremental indexing
      if b.toNat = 64 then decodeField t ⟨0, false, true⟩ rest
      else
        match decodeIndex (b :: rest) 6 with
        | .error e => .error e
        | .ok (index, src) => decodeField t ⟨index, false, true⟩ src
    else if b.toNat < 32 then
      -- literal header field without indexing, or never indexed
      if b.toNat % 16 = 0 then decodeField t ⟨0, false, false⟩ rest
      else
        match decodeIndex (b :: rest) 4 with
        | .error e => .error e
        | .ok (index, src) => decodeField t ⟨index, false, false⟩ src
    else
      -- size update
      match decodeInt (b :: rest) 5 with
      | .error _ => .error .compression
      | .ok (newCapacity, src) =>
        if newCapacity > t.hpackMaxCapacity then .error .compression
        else decodeHeaderLoop n (t.resize newCapacity) src

/-- `h2o_hpack_decode_header`. -/
def decodeHeader (t : HeaderTable) (src : Bytes) :
    Except Error (HeaderTable × Decoded × Bytes) :=
  decodeHeaderLoop src.length t src

/-- Repeated `h2o_hpack_decode_header`, until the block of at most `n` octets
ends. -/
def decodeHeaders :
    Nat → HeaderTable → Bytes → Except Error (HeaderTable × List Decoded)
  | 0, t, _ => .ok (t, [])
  | n + 1, t, src =>
    if src = [] then .ok (t, [])
    else
      match decodeHeader t src with
      | .error e => .error e
      | .ok (t, d, src) =>
        match decodeHeaders n t src with
        | .error e => .error e
        | .ok (t, ds) => .ok (t, d :: ds)

/-- The fields of a block. -/
def decodeBlock (t : HeaderTable) (src : Bytes) :
    Except Error (HeaderTable × List Decoded) :=
  decodeHeaders src.length t src

end H2o.Hpack
