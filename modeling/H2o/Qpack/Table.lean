/-
The QPACK dynamic table (`lib/http3/qpack.c`), shared by encoder and decoder.

Entries are kept oldest first. `base_offset` is the absolute index of the first
one; indices start at 1. The source stores the entries in a buffer of which
they occupy a window, and keeps their total size beside them; here the entries
are a list, and that `num_bytes` is their size is a field of the table.

The encoder and the decoder number entries by the same absolute indices. What
the instructions carry are indices relative to the number of inserts or to the
base of a field section.
-/
import H2o.Hpack.Literal

namespace H2o.Qpack

open Hpack List

variable {t : HeaderTable} {e : Entry}

-- ==== errors

/-- The error descriptions (`h2o_qpack_err_*`, those of the two handlers of
the decoder stream, and the ones that come from the HPACK string decoders). -/
inductive ErrDesc where
  | headerNameTooLong
  | headerValueTooLong
  | headerExceedsTableSize
  | invalidMaxSize
  | invalidStaticReference
  | invalidDynamicReference
  | invalidDuplicate
  | tableStateSynchronize
  | headerAcknowledgement
  | hpack (e : Hpack.ErrDesc)
deriving DecidableEq

def ErrDesc.text : ErrDesc → String
  | headerNameTooLong => "header name too long"
  | headerValueTooLong => "header value too long"
  | headerExceedsTableSize => "header exceeds table size"
  | invalidMaxSize => "invalid max size"
  | invalidStaticReference => "invalid static reference"
  | invalidDynamicReference => "invalid dynamic reference"
  | invalidDuplicate => "invalid duplicate"
  | tableStateSynchronize => "Table State Synchronize: invalid argument"
  | headerAcknowledgement => "Header Acknowledgement: invalid stream id"
  | hpack e => e.text

/-- The error codes, with `*err_desc` where it is set. -/
inductive Error where
  | incomplete
  | qpackDecompressionFailed (desc : Option ErrDesc)
  | qpackDecoderStream (desc : ErrDesc)
deriving DecidableEq

/-- `decode_int`. -/
def decodeInt (src : Bytes) (prefixBits : Nat) : Except Error (Nat × Bytes) :=
  match Hpack.decodeInt src prefixBits with
  | .ok r => .ok r
  | .error .incomplete => .error .incomplete
  | .error .compression => .error (.qpackDecompressionFailed none)

-- ==== table

/-- `HEADER_ENTRY_SIZE_OFFSET`. -/
def headerEntrySizeOffset : Nat := 32

/-- `struct st_h2o_qpack_header_t`. -/
structure Entry where
  name : Name
  value : Bytes
  softErrors : SoftErrors
deriving DecidableEq

def Entry.size (e : Entry) : Nat :=
  e.name.bytes.length + e.value.length + headerEntrySizeOffset

def entriesSize (entries : List Entry) : Nat := (entries.map Entry.size).sum

theorem entriesSize_nil : entriesSize [] = 0 := rfl

/-- `struct st_h2o_qpack_header_table_t`. -/
structure HeaderTable where
  entries : List Entry
  baseOffset : Nat
  numBytes : Nat
  maxSize : Nat
  numBytes_eq : numBytes = entriesSize entries

namespace HeaderTable

/-- `header_table_init`. -/
def init (maxSize : Nat) : HeaderTable :=
  ⟨[], 1, 0, maxSize, entriesSize_nil.symm⟩

/-- One round of the loop of `header_table_evict`: the oldest entry goes. -/
def dropFirst (t : HeaderTable) : HeaderTable :=
  match h : t.entries with
  | [] => t
  | e :: es =>
    { entries := es
      baseOffset := t.baseOffset + 1
      numBytes := t.numBytes - e.size
      maxSize := t.maxSize
      numBytes_eq := by simp [t.numBytes_eq, h, entriesSize] }

/-- The loop of `header_table_evict`, over at most `n` entries. -/
def evictLoop (delta : Nat) : Nat → HeaderTable → HeaderTable
  | 0, t => t
  | n + 1, t =>
    if t.numBytes + delta ≤ t.maxSize then t
    else evictLoop delta n t.dropFirst

/-- `header_table_evict`. -/
def evict (t : HeaderTable) (delta : Nat) : HeaderTable :=
  evictLoop delta t.entries.length t

/-- `header_table_insert`. -/
def insert (t : HeaderTable) (added : Entry) : HeaderTable :=
  let t := t.evict added.size
  { t with
    entries := t.entries ++ [added]
    numBytes := t.numBytes + added.size
    numBytes_eq := by simp [t.numBytes_eq, entriesSize] }

/-- `qpack_table_total_inserts`. -/
def totalInserts (t : HeaderTable) : Nat := t.baseOffset + t.entries.length

/-- `resolve_dynamic_abs`. -/
def resolveDynamicAbs (t : HeaderTable) (index : Nat) : Option Entry :=
  if index < t.baseOffset then none else t.entries[index - t.baseOffset]?

-- ---------------------------------------------------- inserting with room

/-- With room for the new entry nothing is evicted. -/
theorem evict_of_le {delta : Nat} (h : t.numBytes + delta ≤ t.maxSize) :
    t.evict delta = t := by
  unfold evict
  cases t.entries.length with
  | zero => rfl
  | succ n => rw [evictLoop, if_pos h]

theorem insert_entries (h : t.numBytes + e.size ≤ t.maxSize) :
    (t.insert e).entries = t.entries ++ [e] := by
  simp [insert, evict_of_le h]

theorem insert_baseOffset (h : t.numBytes + e.size ≤ t.maxSize) :
    (t.insert e).baseOffset = t.baseOffset := by
  simp [insert, evict_of_le h]

theorem insert_numBytes (h : t.numBytes + e.size ≤ t.maxSize) :
    (t.insert e).numBytes = t.numBytes + e.size := by
  simp [insert, evict_of_le h]

theorem dropFirst_maxSize (t : HeaderTable) :
    t.dropFirst.maxSize = t.maxSize := by
  unfold dropFirst
  split <;> rfl

theorem evictLoop_maxSize (delta n : Nat) (t : HeaderTable) :
    (evictLoop delta n t).maxSize = t.maxSize := by
  induction n generalizing t with
  | zero => rfl
  | succ n ih =>
    rw [evictLoop]
    split
    · rfl
    · rw [ih, dropFirst_maxSize]

@[simp] theorem insert_maxSize (t : HeaderTable) (e : Entry) :
    (t.insert e).maxSize = t.maxSize := by
  simp [insert, evict, evictLoop_maxSize]

theorem insert_totalInserts (h : t.numBytes + e.size ≤ t.maxSize) :
    (t.insert e).totalInserts = t.totalInserts + 1 := by
  simp [totalInserts, insert_entries h, insert_baseOffset h, Nat.add_assoc]

/-- What is in the table stays where it is when there is room. -/
theorem resolveDynamicAbs_insert {i : Nat}
    (h : t.numBytes + e.size ≤ t.maxSize) (hi : i < t.totalInserts) :
    (t.insert e).resolveDynamicAbs i = t.resolveDynamicAbs i := by
  unfold totalInserts at hi
  simp only [resolveDynamicAbs, insert_entries h, insert_baseOffset h]
  split
  · rfl
  · rw [getElem?_append_left (by omega)]

/-- The entry added is the last one. -/
theorem resolveDynamicAbs_insert_last (h : t.numBytes + e.size ≤ t.maxSize) :
    (t.insert e).resolveDynamicAbs t.totalInserts = some e := by
  simp only [resolveDynamicAbs, insert_entries h, insert_baseOffset h,
    totalInserts]
  simp

-- ---------------------------------------------------------------- evicting

/-- What eviction does: some of the oldest entries go, and there is room. -/
structure Evicted (t t' : HeaderTable) (delta : Nat) : Prop where
  entries : t'.entries <:+ t.entries
  baseOffset : t.baseOffset ≤ t'.baseOffset
  totalInserts : t'.totalInserts = t.totalInserts
  maxSize : t'.maxSize = t.maxSize
  room : delta ≤ t.maxSize → t'.numBytes + delta ≤ t.maxSize

theorem dropFirst_nil (h : t.entries = []) : t.dropFirst = t := by
  unfold dropFirst
  split
  · rfl
  · simp_all

theorem dropFirst_cons {es : List Entry} (h : t.entries = e :: es) :
    t.dropFirst.entries = es ∧ t.dropFirst.baseOffset = t.baseOffset + 1 := by
  unfold dropFirst
  split <;> simp_all

theorem evictLoop_evicted (delta : Nat) {n : Nat} (hn : t.entries.length ≤ n) :
    Evicted t (evictLoop delta n t) delta := by
  induction n generalizing t with
  | zero =>
    have hnil : t.entries = [] := eq_nil_of_length_eq_zero (by omega)
    refine ⟨suffix_rfl, le_rfl, rfl, rfl, fun h => ?_⟩
    rw [evictLoop, t.numBytes_eq, hnil]
    simpa [entriesSize] using h
  | succ n ih =>
    rw [evictLoop]
    split
    next hle => exact ⟨suffix_rfl, le_rfl, rfl, rfl, fun _ => hle⟩
    next =>
      cases hes : t.entries with
      | nil =>
        rw [dropFirst_nil hes]
        exact ih (by simp [hes])
      | cons e es =>
        obtain ⟨hentries, hbase⟩ := dropFirst_cons hes
        have hev := ih (t := t.dropFirst) (by
          rw [hes, length_cons] at hn
          rw [hentries]
          omega)
        have hmax := dropFirst_maxSize t
        refine ⟨?_, ?_, ?_, hev.maxSize.trans hmax, ?_⟩
        · rw [hes]
          exact (hentries ▸ hev.entries).trans (suffix_cons e es)
        · have := hev.baseOffset
          omega
        · rw [hev.totalInserts, HeaderTable.totalInserts,
            HeaderTable.totalInserts, hes, hentries,
            length_cons]
          omega
        · rw [← hmax]
          exact hev.room

theorem evict_evicted (t : HeaderTable) (delta : Nat) :
    Evicted t (t.evict delta) delta :=
  evictLoop_evicted delta le_rfl

end HeaderTable

-- ==== static table

/-- `resolve_static_abs`: the token and the value of a static entry. -/
def resolveStaticAbs (index : Nat) : Option (Token × Bytes) :=
  qpackStaticTable[index]?.map fun e => (e.1, ascii e.2)

end H2o.Qpack
