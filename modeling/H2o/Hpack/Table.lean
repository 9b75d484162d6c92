/-
The HPACK dynamic table (`h2o_hpack_header_table_t`, `lib/http2/hpack.c`),
shared by the encoder and the decoder.

The source keeps the entries in a ring buffer that grows when it is full.
`h2o_hpack_header_table_get` numbers them from the newest one on; here they are
a list in that order. Their total size is kept beside them, and that it is
right is a field of the table: the assertion of `header_table_add` holds by
construction.

# What eviction leaves

The loops drop the oldest entry until the rest fits. What is left is the
longest beginning of the list that does (`Lib.takeFit`).
-/
import H2o.Hpack.Literal
import H2o.Lib.Fit

namespace H2o.Hpack

open Lib List

variable {maxNumEntries : Option Nat}

/-- `HEADER_TABLE_ENTRY_SIZE_OFFSET`. -/
def headerTableEntrySizeOffset : Nat := 32

/-- `HEADER_TABLE_OFFSET`: the index of the newest dynamic entry. -/
def headerTableOffset : Nat := 62

/-- `struct st_h2o_hpack_header_table_entry_t`. The encoder does not use the
soft errors. -/
structure Entry where
  name : Name
  value : Bytes
  softErrors : SoftErrors
deriving DecidableEq

/-- The name and the value as octets. -/
def Entry.field (e : Entry) : Bytes × Bytes := (e.name.bytes, e.value)

/-- The size of an entry with this name and value. -/
def fieldSize (f : Bytes × Bytes) : Nat :=
  f.1.length + f.2.length + headerTableEntrySizeOffset

def Entry.size (e : Entry) : Nat := fieldSize e.field

def entriesSize (entries : List Entry) : Nat := (entries.map Entry.size).sum

/-- `h2o_hpack_header_table_t`, newest entry first. -/
structure HeaderTable where
  entries : List Entry
  hpackSize : Nat
  hpackCapacity : Nat
  hpackMaxCapacity : Nat
  hpackSize_eq : hpackSize = entriesSize entries

namespace HeaderTable

def create (hpackCapacity hpackMaxCapacity : Nat) : HeaderTable :=
  ⟨[], 0, hpackCapacity, hpackMaxCapacity, rfl⟩

theorem entriesSize_dropLast (l : List Entry) (h : l ≠ []) :
    entriesSize l.dropLast = entriesSize l - (l.getLast h).size := by
  have hsum := congrArg entriesSize (dropLast_append_getLast h)
  simp only [entriesSize, map_append, sum_append, map_cons, map_nil,
    sum_singleton] at hsum ⊢
  omega

/-- `header_table_evict_one`; the loops call it on a table that is not
empty. -/
def evictOne (t : HeaderTable) : HeaderTable :=
  if h : t.entries = [] then t
  else
    { t with
      entries := t.entries.dropLast
      hpackSize := t.hpackSize - (t.entries.getLast h).size
      hpackSize_eq := by rw [entriesSize_dropLast _ h, t.hpackSize_eq] }

/-- `while (num_entries != 0 && hpack_size + size_add > hpack_capacity)`, over
at most `n` entries. -/
def evictLoop (sizeAdd : Nat) : Nat → HeaderTable → HeaderTable
  | 0, t => t
  | n + 1, t =>
    if t.hpackSize + sizeAdd > t.hpackCapacity then
      evictLoop sizeAdd n t.evictOne
    else t

def evict (t : HeaderTable) (sizeAdd : Nat) : HeaderTable :=
  evictLoop sizeAdd t.entries.length t

/-- `while (max_num_entries <= num_entries)`, over at most `n` entries. -/
def limitLoop (maxNumEntries : Nat) : Nat → HeaderTable → HeaderTable
  | 0, t => t
  | n + 1, t =>
    if maxNumEntries ≤ t.entries.length then
      limitLoop maxNumEntries n t.evictOne
    else t

/-- The two loops of `header_table_add`. `none` for the maximum is
`SIZE_MAX`. -/
def makeRoom (t : HeaderTable) (sizeAdd : Nat) (maxNumEntries : Option Nat) :
    HeaderTable :=
  let t := t.evict sizeAdd
  match maxNumEntries with
  | none => t
  | some n => limitLoop n t.entries.length t

def push (t : HeaderTable) (e : Entry) : HeaderTable :=
  { t with
    entries := e :: t.entries
    hpackSize := t.hpackSize + e.size
    hpackSize_eq := by
      simp only [entriesSize, map_cons, sum_cons]
      rw [Nat.add_comm, t.hpackSize_eq, entriesSize] }

/-- `header_table_add` and the assignment to the slot it returns, if it
does. -/
def add (t : HeaderTable) (e : Entry) (maxNumEntries : Option Nat) :
    HeaderTable :=
  let t := t.makeRoom e.size maxNumEntries
  if t.entries = [] ∧ e.size > t.hpackCapacity then t else t.push e

/-- A new capacity, and the loop that follows it. -/
def resize (t : HeaderTable) (newCapacity : Nat) : HeaderTable :=
  evict { t with hpackCapacity := newCapacity } 0

-- ==== eviction

@[simp] theorem evictOne_entries (t : HeaderTable) :
    t.evictOne.entries = t.entries.dropLast := by
  unfold evictOne
  split
  next h => rw [h]; rfl
  next => rfl

@[simp] theorem evictOne_hpackCapacity (t : HeaderTable) :
    t.evictOne.hpackCapacity = t.hpackCapacity := by
  unfold evictOne
  split <;> rfl

@[simp] theorem evictOne_hpackMaxCapacity (t : HeaderTable) :
    t.evictOne.hpackMaxCapacity = t.hpackMaxCapacity := by
  unfold evictOne
  split <;> rfl

/-- The two capacities stay. -/
def SameCapacity (t t' : HeaderTable) : Prop :=
  t'.hpackCapacity = t.hpackCapacity ∧ t'.hpackMaxCapacity = t.hpackMaxCapacity

theorem SameCapacity.trans {t t₁ t₂ : HeaderTable} (h : SameCapacity t t₁)
    (h' : SameCapacity t₁ t₂) : SameCapacity t t₂ :=
  ⟨h'.1.trans h.1, h'.2.trans h.2⟩

theorem sameCapacity_evictOne (t : HeaderTable) : SameCapacity t t.evictOne :=
  ⟨t.evictOne_hpackCapacity, t.evictOne_hpackMaxCapacity⟩

/-- What is left are the newest that fit. -/
theorem evictLoop_spec {sizeAdd n : Nat} {t : HeaderTable}
    (hn : t.entries.length ≤ n) :
    (evictLoop sizeAdd n t).entries =
      takeFit Entry.size t.hpackCapacity sizeAdd t.entries ∧
      SameCapacity t (evictLoop sizeAdd n t) := by
  induction n generalizing t with
  | zero =>
    rw [eq_nil_of_length_eq_zero (Nat.le_zero.mp hn)]
    exact ⟨eq_nil_of_length_eq_zero (Nat.le_zero.mp hn), rfl, rfl⟩
  | succ n ih =>
    have hsize := t.hpackSize_eq
    rw [entriesSize] at hsize
    rw [evictLoop]
    split
    next hfull =>
      have hlen : t.evictOne.entries.length ≤ n := by
        rw [evictOne_entries, length_dropLast]
        omega
      obtain ⟨hentries, hsame⟩ := ih hlen
      refine ⟨?_, (sameCapacity_evictOne t).trans hsame⟩
      rw [hentries, evictOne_hpackCapacity, evictOne_entries,
        takeFit_dropLast (by omega)]
    next hfits => exact ⟨(takeFit_eq_self (by omega)).symm, rfl, rfl⟩

theorem evict_entries (t : HeaderTable) (sizeAdd : Nat) :
    (t.evict sizeAdd).entries =
      takeFit Entry.size t.hpackCapacity sizeAdd t.entries :=
  (evictLoop_spec le_rfl).1

theorem sameCapacity_evict (t : HeaderTable) (sizeAdd : Nat) :
    SameCapacity t (t.evict sizeAdd) :=
  (evictLoop_spec le_rfl).2

/-- Or as many as are allowed. -/
theorem limitLoop_spec {maxNumEntries n : Nat} {t : HeaderTable}
    (hpos : 0 < maxNumEntries) (hn : t.entries.length ≤ n) :
    (limitLoop maxNumEntries n t).entries =
      t.entries.take (maxNumEntries - 1) ∧
      SameCapacity t (limitLoop maxNumEntries n t) := by
  induction n generalizing t with
  | zero =>
    have hnil := eq_nil_of_length_eq_zero (Nat.le_zero.mp hn)
    rw [hnil, take_nil]
    exact ⟨hnil, rfl, rfl⟩
  | succ n ih =>
    rw [limitLoop]
    split
    next hfull =>
      have hlen : t.evictOne.entries.length ≤ n := by
        rw [evictOne_entries, length_dropLast]
        omega
      obtain ⟨hentries, hsame⟩ := ih hlen
      refine ⟨?_, (sameCapacity_evictOne t).trans hsame⟩
      rw [hentries, evictOne_entries, dropLast_eq_take, take_take,
        Nat.min_eq_left (by omega)]
    next hfits =>
      refine ⟨?_, rfl, rfl⟩
      rw [take_of_length_le (by omega)]

/-- The loops leave as much as fits, and of that no more than one less than
the maximum. -/
theorem makeRoom_spec (hpos : ∀ n ∈ maxNumEntries, 0 < n) (t : HeaderTable)
    (sizeAdd : Nat) :
    (∃ k, (t.makeRoom sizeAdd maxNumEntries).entries =
        (takeFit Entry.size t.hpackCapacity sizeAdd t.entries).take k ∧
      (∀ n ∈ maxNumEntries, k + 1 = n) ∧
      (maxNumEntries = none →
        (takeFit Entry.size t.hpackCapacity sizeAdd t.entries).length ≤ k)) ∧
      SameCapacity t (t.makeRoom sizeAdd maxNumEntries) := by
  have hevict := sameCapacity_evict t sizeAdd
  cases maxNumEntries with
  | none =>
    refine ⟨⟨_, ?_, nofun, fun _ => le_rfl⟩, hevict⟩
    rw [take_length]
    exact evict_entries t sizeAdd
  | some n =>
    obtain ⟨hlimit, hsame⟩ :=
      @limitLoop_spec n _ (t.evict sizeAdd) (hpos n rfl) le_rfl
    have hn := hpos n rfl
    refine ⟨⟨n - 1, ?_, ?_, nofun⟩, hevict.trans hsame⟩
    · rw [← evict_entries]
      exact hlimit
    · rintro _ ⟨⟩
      omega

-- ==== fields

/-- The entries as octets. -/
def fields (t : HeaderTable) : List (Bytes × Bytes) :=
  t.entries.map Entry.field

/-- What an addition makes of a list of fields. -/
def addFields (cap : Nat) (l : List (Bytes × Bytes)) (f : Bytes × Bytes) :
    List (Bytes × Bytes) :=
  if cap < fieldSize f then [] else f :: takeFit fieldSize cap (fieldSize f) l

/-- A table with fewer entries stays a beginning. -/
theorem addFields_isPrefix {cap : Nat} {l l' : List (Bytes × Bytes)}
    (h : l <+: l') (f : Bytes × Bytes) :
    addFields cap l f <+: addFields cap l' f := by
  unfold addFields
  split
  · exact nil_prefix
  · exact cons_prefix_cons.mpr ⟨rfl, takeFit_isPrefix h⟩

theorem fields_takeFit (cap used : Nat) (l : List Entry) :
    (takeFit Entry.size cap used l).map Entry.field =
      takeFit fieldSize cap used (l.map Entry.field) :=
  (takeFit_map (fun _ => rfl) used l).symm

theorem takeFit_of_lt {cap used : Nat} (h : cap < used) (l : List Entry) :
    takeFit Entry.size cap used l = [] := by
  cases l with
  | nil => rfl
  | cons e l => rw [takeFit, if_neg (by omega)]

theorem sameCapacity_add (hpos : ∀ n ∈ maxNumEntries, 0 < n) (t : HeaderTable)
    (e : Entry) :
    SameCapacity t (t.add e maxNumEntries) := by
  obtain ⟨-, hsame⟩ := makeRoom_spec hpos t e.size
  unfold add
  simp only
  split
  · exact hsame
  · exact hsame

theorem add_length_le {n : Nat} (hpos : 0 < n) (t : HeaderTable) (e : Entry) :
    (t.add e (some n)).entries.length ≤ n := by
  have hpos' : ∀ m ∈ some n, 0 < m := by
    rintro _ ⟨⟩
    exact hpos
  obtain ⟨⟨k, hentries, hk, -⟩, -⟩ := makeRoom_spec hpos' t e.size
  have hkn := hk n rfl
  have hlen : (t.makeRoom e.size (some n)).entries.length ≤ k := by
    rw [hentries]
    exact length_take_le _ _
  unfold add
  simp only
  split
  · omega
  · show (t.makeRoom e.size (some n)).entries.length + 1 ≤ n
    omega

/-- An addition, up to a maximum that is reached. -/
theorem fields_add (hpos : ∀ n ∈ maxNumEntries, 0 < n) (t : HeaderTable)
    (e : Entry) :
    (t.add e maxNumEntries).fields <+:
      addFields t.hpackCapacity t.fields e.field ∧
        (maxNumEntries = none → (t.add e maxNumEntries).fields =
          addFields t.hpackCapacity t.fields e.field) := by
  obtain ⟨⟨k, hentries, -, hk⟩, hcap, -⟩ := makeRoom_spec hpos t e.size
  have hsize : fieldSize e.field = e.size := rfl
  unfold add addFields
  simp only [hcap, hsize]
  by_cases hbig : t.hpackCapacity < e.size
  · rw [takeFit_of_lt hbig, take_nil] at hentries
    rw [if_pos ⟨hentries, hbig⟩, if_pos hbig, fields, hentries]
    exact ⟨List.nil_prefix, fun _ => rfl⟩
  rw [if_neg (fun h => hbig h.2), if_neg hbig, fields, fields,
    ← fields_takeFit]
  show e.field :: (t.makeRoom e.size maxNumEntries).entries.map Entry.field
      <+: _ ∧ (maxNumEntries = none →
        e.field :: (t.makeRoom e.size maxNumEntries).entries.map Entry.field =
          _)
  rw [hentries]
  refine ⟨?_, fun hnone => ?_⟩
  · rw [map_take]
    exact cons_prefix_cons.mpr ⟨rfl, take_prefix _ _⟩
  · rw [take_of_length_le (hk hnone)]

/-- So it is after a new size. -/
theorem fields_resize (t : HeaderTable) (newCapacity : Nat) :
    (t.resize newCapacity).fields =
      takeFit fieldSize newCapacity 0 t.fields := by
  unfold resize fields
  rw [evict_entries, fields_takeFit]

theorem resize_hpackCapacity (t : HeaderTable) (newCapacity : Nat) :
    (t.resize newCapacity).hpackCapacity = newCapacity :=
  (sameCapacity_evict _ 0).1

theorem resize_hpackMaxCapacity (t : HeaderTable) (newCapacity : Nat) :
    (t.resize newCapacity).hpackMaxCapacity = t.hpackMaxCapacity :=
  (sameCapacity_evict _ 0).2

end HeaderTable

end H2o.Hpack
