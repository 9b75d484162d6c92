/-
The table of the QPACK decoder resolves what was inserted.

`Holds` ties the window of pointers to the list of `HeaderTable`: the pointers
lead to the entries, and the table owns a reference for each. `held` are
references of someone else, as that of `duplicate` to the entry it is about to
insert; no eviction takes them. The operations have no fault and do what those
of the list do. A decoder on the window follows one on the list (`Follows`),
and the list is the end of what was ever inserted, so that an absolute index
is a position in that history.
-/
import H2o.Lib.Window
import H2o.Qpack.Proofs.DecoderInv
import H2o.Qpack.Window

namespace H2o.Qpack

open Hpack Lib List Option

variable {inserted : List Entry} {e : Entry}

-- ==== the window

structure Holds (w : WindowTable) (t : HeaderTable) (refs held : List Nat) :
    Prop where
  window : InWindow w.buf w.first refs
  last : w.last = w.first + refs.length
  owns : w.mem.Owns (refs ++ held)
  entries : refs.map w.mem.get = t.entries.map some
  baseOffset : w.baseOffset = t.baseOffset
  numBytes : w.numBytes = t.numBytes
  maxSize : w.maxSize = t.maxSize
  capacity : w.buf.length = 0 ∨ 4 ≤ w.buf.length

variable {w : WindowTable} {t : HeaderTable} {refs held : List Nat}

section

variable (h : Holds w t refs held)
include h

theorem Holds.length : refs.length = t.entries.length := by
  have hlen := congrArg List.length h.entries
  rwa [length_map, length_map] at hlen

theorem Holds.count : w.last - w.first = t.entries.length := by
  rw [h.last, Nat.add_sub_cancel_left, h.length]

/-- A slot in use holds the reference of its entry. -/
theorem Holds.slot {i : Nat} (hi : i < refs.length) :
    w.slot (w.first + i) = .ok refs[i] := by
  rw [WindowTable.slot, h.window.slot i hi]

theorem Holds.get {i : Nat} (hi : i < refs.length) :
    w.mem.get refs[i] = t.entries[i]? := by
  have hget := congrArg (·[i]?) h.entries
  simp only [getElem?_map, getElem?_eq_getElem hi] at hget
  have hi' : i < t.entries.length := h.length ▸ hi
  rw [getElem?_eq_getElem hi'] at hget
  rw [getElem?_eq_getElem hi']
  exact some.inj hget

/-- A round of the loop takes the oldest entry off. -/
theorem Holds.evictOne (hne : t.entries ≠ []) :
    ∃ w' refs', w.evictOne = .ok w' ∧ Holds w' t.dropFirst refs' held ∧
      w'.last = w.last ∧ ∀ q ∈ held, w'.mem.get q = w.mem.get q := by
  cases hentries : t.entries with
  | nil => exact absurd hentries hne
  | cons e es =>
    have hrefs : refs.length = es.length + 1 := by
      rw [h.length, hentries, length_cons]
    cases refs with
    | nil => cases hrefs
    | cons p rest =>
      have hslot : w.slot w.first = .ok p := h.slot (Nat.succ_pos _)
      have hget : w.mem.get p = some e := by
        have := h.get (i := 0) (Nat.succ_pos _)
        rwa [hentries] at this
      obtain ⟨mem, hrelease, howns, hsame⟩ := h.owns.release
      obtain ⟨hdrop, hbase⟩ := HeaderTable.dropFirst_cons hentries
      have hderef : w.deref p = .ok e := by
        rw [WindowTable.deref, hget]
      have hstep : w.evictOne = .ok { w with
          mem := mem
          numBytes := w.numBytes - e.size
          buf := w.buf.set w.first none
          first := w.first + 1
          baseOffset := w.baseOffset + 1 } := by
        simp only [WindowTable.evictOne, hslot, hderef, hrelease, bind,
          Except.bind, pure, Except.pure]
      refine ⟨_, rest, hstep, ?_, rfl, fun q hq =>
        hsame q (mem_append_right rest hq)⟩
      refine ⟨h.window.tail none, ?_, howns, ?_, ?_, ?_, ?_, ?_⟩
      · have hlast := h.last
        rw [length_cons] at hlast
        simp only
        omega
      · have hrest := h.entries
        rw [hentries, map_cons] at hrest
        rw [hdrop, ← (cons.inj hrest).2]
        exact map_congr_left fun q hq => hsame q (mem_append_left held hq)
      · rw [hbase, h.baseOffset]
      · rw [h.numBytes, t.numBytes_eq, t.dropFirst.numBytes_eq, hdrop,
          hentries, entriesSize, map_cons, sum_cons,
          Nat.add_sub_cancel_left, entriesSize]
      · rw [HeaderTable.dropFirst_maxSize, h.maxSize]
      · rw [length_set]
        exact h.capacity

theorem Holds.evictLoop (delta : Nat) {n : Nat} (hn : n = t.entries.length) :
    ∃ w' refs', w.evictLoop delta n = .ok w' ∧
      Holds w' (t.evictLoop delta n) refs' held ∧
      ∀ q ∈ held, w'.mem.get q = w.mem.get q := by
  induction n generalizing w t refs with
  | zero =>
    have hnil : t.entries = [] := eq_nil_of_length_eq_zero hn.symm
    have hzero : w.numBytes = 0 := by
      rw [h.numBytes, t.numBytes_eq, hnil, entriesSize_nil]
    exact ⟨w, refs, if_pos hzero, h, fun _ _ => rfl⟩
  | succ n ih =>
    have hcount := h.count
    rw [WindowTable.evictLoop, HeaderTable.evictLoop, if_neg (by omega),
      h.numBytes, h.maxSize]
    by_cases hroom : t.numBytes + delta ≤ t.maxSize
    · rw [if_pos hroom, if_pos hroom]
      exact ⟨w, refs, rfl, h, fun _ _ => rfl⟩
    rw [if_neg hroom, if_neg hroom]
    have hne : t.entries ≠ [] := by
      intro hnil
      rw [hnil] at hn
      cases hn
    obtain ⟨w₁, refs₁, hstep, h₁, -, hsame₁⟩ := h.evictOne hne
    have hn₁ : n = t.dropFirst.entries.length := by
      have := h₁.length
      cases hentries : t.entries with
      | nil => exact absurd hentries hne
      | cons e es =>
        rw [(HeaderTable.dropFirst_cons hentries).1]
        rw [hentries, length_cons] at hn
        omega
    obtain ⟨w₂, refs₂, hloop, h₂, hsame₂⟩ := ih h₁ hn₁
    refine ⟨w₂, refs₂, ?_, h₂, fun q hq => (hsame₂ q hq).trans (hsame₁ q hq)⟩
    rw [hstep]
    exact hloop

/-- Eviction stops at the same entry. -/
theorem Holds.evict (delta : Nat) :
    ∃ w' refs', w.evict delta = .ok w' ∧ Holds w' (t.evict delta) refs' held ∧
      ∀ q ∈ held, w'.mem.get q = w.mem.get q := by
  rw [WindowTable.evict, h.count]
  exact h.evictLoop delta rfl

/-- The pointers are moved to the beginning of a buffer with room for more. -/
theorem Holds.moved {capacity : Nat} (hcapacity : 4 ≤ capacity)
    (hroom : refs.length < capacity) :
    Holds { w with
        buf := (w.buf.drop w.first).take (w.last - w.first) ++
          replicate (capacity - (w.last - w.first)) none
        first := 0
        last := w.last - w.first } t refs held ∧
      w.last - w.first < ((w.buf.drop w.first).take (w.last - w.first) ++
        replicate (capacity - (w.last - w.first)) none).length := by
  have hcount : w.last - w.first = refs.length := by rw [h.count, h.length]
  rw [hcount, h.window.slots]
  have hlen : (refs.map some ++
      replicate (capacity - refs.length) (none : Option Nat)).length =
      capacity := by
    rw [length_append, length_map, length_replicate]
    omega
  refine ⟨⟨inWindow_map_some .., (Nat.zero_add _).symm, h.owns, h.entries,
    h.baseOffset, h.numBytes, h.maxSize, .inr ?_⟩, ?_⟩
  · simp only [hlen]
    exact hcapacity
  · rw [hlen]
    exact hroom

/-- Moving or growing keeps the window. -/
theorem Holds.makeRoom : ∃ w', w.makeRoom = .ok w' ∧ Holds w' t refs held ∧
      w'.last < w'.buf.length ∧ w'.mem = w.mem := by
  have hcount : w.last - w.first = refs.length := by rw [h.count, h.length]
  have hfits := h.window.fits
  unfold WindowTable.makeRoom
  by_cases hend : w.last = w.buf.length
  · rw [if_pos hend]
    simp only
    generalize hnew : (if w.last - w.first ≤ 2 then 4
      else (w.last - w.first) * 2) = newCapacity
    have hnew4 : 4 ≤ newCapacity ∧ refs.length < newCapacity := by
      split at hnew <;> omega
    by_cases hgrow : newCapacity > w.buf.length
    · rw [if_pos hgrow]
      obtain ⟨hholds, hlt⟩ := h.moved hnew4.1 hnew4.2
      exact ⟨_, rfl, hholds, hlt, rfl⟩
    · rw [if_neg hgrow]
      -- a full buffer would have to grow
      have hfirst : w.first ≠ 0 := by omega
      rw [if_neg hfirst]
      obtain ⟨hholds, hlt⟩ :=
        h.moved (show 4 ≤ w.buf.length by omega) (by omega)
      exact ⟨_, rfl, hholds, hlt, rfl⟩
  · rw [if_neg hend]
    exact ⟨w, rfl, h, by omega, rfl⟩

end

/-- Someone has got a reference more. -/
theorem Holds.withRef (h : Holds w t refs []) {mem : Shared Entry} {p : Nat}
    (howns : mem.Owns (p :: (refs ++ [])))
    (hsame : ∀ q ∈ refs, mem.get q = w.mem.get q) :
    Holds { w with mem := mem } t refs [p] := by
  refine ⟨h.window, h.last, howns.perm ?_, ?_, h.baseOffset, h.numBytes,
    h.maxSize, h.capacity⟩
  · rw [append_nil]
    exact perm_append_singleton p refs
  · rw [← h.entries]
    exact map_congr_left hsame

/-- An insertion takes over the reference to the entry. -/
theorem Holds.insert {p : Nat} (h : Holds w t refs (p :: held))
    (hget : w.mem.get p = some e) :
    ∃ w' refs', w.insert p = .ok w' ∧ Holds w' (t.insert e) refs' held := by
  obtain ⟨w₁, refs₁, hevict, h₁, hsame⟩ := h.evict e.size
  obtain ⟨w₂, hmake, h₂, hroom, hmem⟩ := h₁.makeRoom
  have hget₂ : w₂.mem.get p = some e := by
    rw [hmem, hsame p mem_cons_self, hget]
  have hins : w.insert p = .ok { w₂ with
      buf := w₂.buf.set w₂.last (some p)
      last := w₂.last + 1
      numBytes := w₂.numBytes + e.size } := by
    simp only [WindowTable.insert, WindowTable.deref, hget, hevict, hmake,
      hget₂, if_pos hroom, bind, Except.bind, pure, Except.pure]
  refine ⟨_, refs₁ ++ [p], hins, ?_⟩
  have hlast := h₂.last
  refine ⟨?_, ?_, ?_, ?_, h₂.baseOffset, ?_, h₂.maxSize, ?_⟩
  · have hpush := h₂.window.push (by omega) p
    rwa [← hlast] at hpush
  · simp only [length_append, length_singleton]
    omega
  · refine h₂.owns.perm ?_
    rw [append_assoc]
    rfl
  · simp only [map_append, map_cons, map_nil, hget₂, HeaderTable.insert,
      h₂.entries]
  · simp only [HeaderTable.insert, h₂.numBytes]
  · rw [length_set]
    exact h₂.capacity

-- ==== the history

/-- What eviction leaves is the end of what was there, as much shorter as the
base has moved. -/
theorem evicted_eq_drop {t' : HeaderTable} {delta : Nat}
    (h : HeaderTable.Evicted t t' delta) :
    t'.entries = t.entries.drop (t'.baseOffset - t.baseOffset) := by
  have htotal := h.totalInserts
  have hlen := h.entries.length_le
  unfold HeaderTable.totalInserts at htotal
  rw [suffix_iff_eq_drop.1 h.entries]
  congr 1
  omega

/-- The entries are the end of the history, from the base on. -/
structure Recorded (t : HeaderTable) (inserted : List Entry) : Prop where
  base : 1 ≤ t.baseOffset
  total : t.totalInserts = inserted.length + 1
  entries : t.entries = inserted.drop (t.baseOffset - 1)

theorem Recorded.evict (h : Recorded t inserted) (delta : Nat) :
    Recorded (t.evict delta) inserted := by
  have hev := t.evict_evicted delta
  have hbase := h.base
  have hle := hev.baseOffset
  refine ⟨by omega, hev.totalInserts.trans h.total, ?_⟩
  rw [evicted_eq_drop hev, h.entries, drop_drop]
  congr 1
  omega

/-- The history grows by the entry. -/
theorem Recorded.insert (h : Recorded t inserted) (e : Entry) :
    Recorded (t.insert e) (inserted ++ [e]) := by
  have hev := h.evict e.size
  have htotal := hev.total
  refine ⟨hev.base, ?_, ?_⟩
  · simp only [HeaderTable.insert, HeaderTable.totalInserts,
      length_append, length_singleton] at htotal ⊢
    omega
  · simp only [HeaderTable.insert, HeaderTable.totalInserts] at htotal ⊢
    rw [drop_append_of_le_length (by omega), ← hev.entries]

theorem Recorded.resize (h : Recorded t inserted) (maxSize : Nat) :
    Recorded { t with maxSize := maxSize } inserted :=
  ⟨h.base, h.total, h.entries⟩

-- ==== the decoder

/-- The decoder on the window follows the one on the list. -/
structure Follows (w : WindowDecoder) (d : Decoder) : Prop where
  table : ∃ refs, Holds w.table d.table refs []
  recorded : Recorded d.table w.inserted
  headerTableSize : w.headerTableSize = d.headerTableSize
  insertCount : w.insertCount = d.insertCount
  totalInserts : w.totalInserts = d.totalInserts

/-- The outcome of an instruction on the window, against that on the list. -/
def SameOutcome (r : Except WindowFault (Except Error WindowDecoder))
    (s : Except Error Decoder) : Prop :=
  match s with
  | .error e => r = .ok (.error e)
  | .ok d => ∃ w, r = .ok (.ok w) ∧ Follows w d

variable {w : WindowDecoder} {d : Decoder}

/-- The insertion of an entry to which the decoder has a reference. -/
theorem Follows.decoderInsert (h : Follows w d) {mem : Shared Entry}
    {refs : List Nat} {p : Nat}
    (hholds : Holds { w.table with mem := mem } d.table refs [p])
    (hget : mem.get p = some e) :
    ∃ w', WindowDecoder.decoderInsert { w with
      table := { w.table with mem := mem } } p = .ok w' ∧
      Follows w' (Qpack.decoderInsert d e) ∧
      w'.inserted = w.inserted ++ [e] := by
  obtain ⟨table, refs', hins, htable⟩ := hholds.insert hget
  refine ⟨{ w with
    insertCount := (w.insertCount + 1) % 2 ^ 32
    totalInserts := w.totalInserts + 1
    table := table
    inserted := w.inserted ++ [e] }, ?_, ⟨⟨refs', htable⟩,
    h.recorded.insert e, h.headerTableSize, ?_, ?_⟩, rfl⟩
  · simp only [WindowDecoder.decoderInsert, WindowTable.deref, hget, hins,
      bind, Except.bind, pure, Except.pure]
  · simp only [Qpack.decoderInsert, h.insertCount]
  · simp only [Qpack.decoderInsert, h.totalInserts]

theorem Follows.decodeValueAndInsert (h : Follows w d) (name : Name)
    (soft : SoftErrors) (isHuff : Bool) (qstr : Bytes) :
    SameOutcome (w.decodeValueAndInsert name soft isHuff qstr)
      (Qpack.decodeValueAndInsert d name soft isHuff qstr) := by
  obtain ⟨refs, hholds⟩ := h.table
  unfold WindowDecoder.decodeValueAndInsert Qpack.decodeValueAndInsert
  cases decodeValue soft isHuff qstr with
  | error e => exact rfl
  | ok r =>
    have hmax := hholds.maxSize
    by_cases hsize : Entry.size ⟨name, r.1, r.2⟩ > d.table.maxSize
    · simp only [if_pos hsize]
      rw [if_pos (by rwa [hmax])]
      exact rfl
    · simp only [if_neg hsize]
      rw [if_neg (by rwa [hmax])]
      obtain ⟨howns, hget, hsame⟩ := hholds.owns.alloc ⟨name, r.1, r.2⟩
      obtain ⟨w', hins, hw', -⟩ := h.decoderInsert (hholds.withRef howns
        fun q hq => hsame q (mem_append_left [] hq)) hget
      exact ⟨w', by simp only [hins]; rfl, hw'⟩

/-- `resolve_dynamic_abs`, and what the pointer it returns leads to. -/
def WindowTable.resolve (t : WindowTable) (index : Int) :
    Except WindowFault (Option Entry) := do
  match ← t.resolveDynamicAbs index with
  | none => return none
  | some p => some <$> t.deref p

theorem Holds.resolve {w : WindowTable}
    {refs held : List Nat} (h : Holds w t refs held) (index : Nat) :
    (t.resolveDynamicAbs index = none ∧ w.resolveDynamicAbs index = .ok none) ∨
      ∃ p e, t.resolveDynamicAbs index = some e ∧
        w.resolveDynamicAbs index = .ok (some p) ∧ w.deref p = .ok e := by
  unfold HeaderTable.resolveDynamicAbs WindowTable.resolveDynamicAbs
  rw [h.baseOffset, h.count]
  by_cases hbase : index < t.baseOffset
  · rw [if_pos hbase, if_pos (by omega)]
    exact .inl ⟨rfl, rfl⟩
  rw [if_neg hbase, if_neg (by omega)]
  by_cases hlen : index - t.baseOffset < t.entries.length
  · have hi : index - t.baseOffset < refs.length := by rwa [h.length]
    have hpos : ((index : Int) - t.baseOffset).toNat =
        index - t.baseOffset := by omega
    rw [if_neg (by omega), hpos, h.slot hi, getElem?_eq_getElem hlen]
    refine .inr ⟨refs[index - t.baseOffset], _, rfl, rfl, ?_⟩
    rw [WindowTable.deref, h.get hi, getElem?_eq_getElem hlen]
  · rw [if_pos (by omega), getElem?_eq_none (by omega)]
    exact .inl ⟨rfl, rfl⟩

section

variable (h : Follows w d)
include h

theorem Follows.insertWithNameReference (nameIsStatic : Bool) (nameIndex : Nat)
    (valueIsHuff : Bool) (value : Bytes) :
    SameOutcome (w.insertWithNameReference nameIsStatic nameIndex
      valueIsHuff value)
      (Qpack.insertWithNameReference d nameIsStatic nameIndex valueIsHuff
        value) := by
  obtain ⟨refs, hholds⟩ := h.table
  have htotal : w.table.totalInserts = d.table.totalInserts := by
    rw [WindowTable.totalInserts, hholds.count, hholds.baseOffset]
    rfl
  unfold WindowDecoder.insertWithNameReference Qpack.insertWithNameReference
  cases nameIsStatic with
  | true =>
    simp only [if_true]
    cases resolveStaticAbs nameIndex with
    | none => exact rfl
    | some ref => exact h.decodeValueAndInsert ..
  | false =>
    simp only [Bool.false_eq_true, if_false, htotal]
    by_cases hindex : nameIndex > d.table.totalInserts - 1
    · rw [if_pos hindex, if_pos hindex]
      exact rfl
    rw [if_neg hindex, if_neg hindex]
    obtain ⟨hnone, hnone'⟩ | ⟨p, e, hsome, hsome', hderef⟩ :=
      hholds.resolve (d.table.totalInserts - 1 - nameIndex)
    · rw [hnone, hnone']
      exact rfl
    · rw [hsome, hsome']
      simp only [hderef, bind, Except.bind]
      split
      · exact h.decodeValueAndInsert ..
      · exact h.decodeValueAndInsert ..

theorem Follows.insertWithoutNameReference (qnhuff : Bool) (qn : Bytes)
    (qvhuff : Bool) (qv : Bytes) :
    SameOutcome (w.insertWithoutNameReference qnhuff qn qvhuff qv)
      (Qpack.insertWithoutNameReference d qnhuff qn qvhuff qv) := by
  unfold WindowDecoder.insertWithoutNameReference
    Qpack.insertWithoutNameReference
  cases qnhuff with
  | true =>
    simp only [if_true]
    cases decodeHuffman .none qn true with
    | error e => exact rfl
    | ok r =>
      simp only
      cases lookupToken r.1 <;> exact h.decodeValueAndInsert ..
  | false =>
    simp only [Bool.false_eq_true, if_false]
    cases validateHeaderName .none qn with
    | error e => exact rfl
    | ok soft =>
      simp only
      cases lookupToken qn <;> exact h.decodeValueAndInsert ..

/-- The entry that a `Duplicate` refers to is inserted, whether or not it is
evicted on the way. -/
theorem Follows.duplicate_some {index : Nat}
    (he : d.table.entries.reverse[index]? = some e) :
    ∃ w', w.duplicate index = .ok (.ok w') ∧
      Follows w' (Qpack.decoderInsert d e) ∧
      w'.inserted = w.inserted ++ [e] := by
  obtain ⟨refs, hholds⟩ := h.table
  have hlen := hholds.length
  have hlast := hholds.last
  have hindex : index < d.table.entries.length := by
    have := (List.getElem?_eq_some_iff.1 he).1
    rwa [length_reverse] at this
  rw [getElem?_reverse hindex] at he
  have hi : d.table.entries.length - 1 - index < refs.length := by omega
  have hpos : w.table.last - index - 1 =
      w.table.first + (d.table.entries.length - 1 - index) := by omega
  obtain ⟨mem, hadd, howns, hsame⟩ :=
    hholds.owns.addref (mem_append_left [] (getElem_mem hi))
  obtain ⟨w', hins, hw', hinserted⟩ :=
    h.decoderInsert (hholds.withRef howns fun q _ => hsame q)
    ((hsame _).trans ((hholds.get hi).trans he))
  refine ⟨w', ?_, hw', hinserted⟩
  unfold WindowDecoder.duplicate
  rw [hholds.count, if_neg (by omega), hpos, hholds.slot hi]
  simp only [hadd, hins, bind, Except.bind]
  rfl

theorem Follows.duplicate (index : Nat) :
    SameOutcome (w.duplicate index) (Qpack.duplicate d index) := by
  obtain ⟨refs, hholds⟩ := h.table
  unfold Qpack.duplicate
  cases he : d.table.entries.reverse[index]? with
  | some e =>
    obtain ⟨w', hdup, hw', -⟩ := h.duplicate_some he
    exact ⟨w', hdup, hw'⟩
  | none =>
    have hindex : index ≥ d.table.entries.length := by
      have := getElem?_eq_none_iff.1 he
      rwa [length_reverse] at this
    show w.duplicate index = _
    rw [WindowDecoder.duplicate, hholds.count, if_pos hindex]

theorem Follows.dynamicTableSizeUpdate (maxSize : Nat) :
    SameOutcome (w.dynamicTableSizeUpdate maxSize)
      (Qpack.dynamicTableSizeUpdate d maxSize) := by
  obtain ⟨refs, hholds⟩ := h.table
  unfold WindowDecoder.dynamicTableSizeUpdate Qpack.dynamicTableSizeUpdate
  rw [h.headerTableSize]
  by_cases hsize : maxSize > d.headerTableSize
  · rw [if_pos hsize, if_pos hsize]
    exact rfl
  rw [if_neg hsize, if_neg hsize]
  have hresized : Holds { w.table with maxSize := maxSize }
      { d.table with maxSize := maxSize } refs [] :=
    ⟨hholds.window, hholds.last, hholds.owns, hholds.entries,
      hholds.baseOffset, hholds.numBytes, rfl, hholds.capacity⟩
  obtain ⟨table, refs', hevict, htable, -⟩ := hresized.evict 0
  refine ⟨{ w with table := table, headerTableSize := d.headerTableSize },
    ?_, ⟨refs', htable⟩, (h.recorded.resize maxSize).evict 0, rfl,
    h.insertCount, h.totalInserts⟩
  rw [hevict]
  rfl

/-- One instruction, with the same outcome. -/
theorem Follows.handleInstruction (i : EncoderInstruction) :
    SameOutcome (w.handleInstruction i) (handleEncoderInstruction d i) := by
  cases i with
  | insertWithNameReference nameIsStatic nameIndex valueIsHuff value =>
    exact h.insertWithNameReference ..
  | insertWithoutNameReference nameIsHuff name valueIsHuff value =>
    exact h.insertWithoutNameReference ..
  | duplicate index => exact h.duplicate index
  | dynamicTableSizeUpdate maxSize => exact h.dynamicTableSizeUpdate maxSize

/-- And all of an input. -/
theorem Follows.instructionLoop (n : Nat) (src : Bytes) :
    ∃ w', WindowDecoder.instructionLoop n w src =
      .ok (w', (feed .incomplete readEncoderInstruction
          handleEncoderInstruction n d src).2) ∧
      Follows w' (feed .incomplete readEncoderInstruction
        handleEncoderInstruction n d src).1 := by
  induction n generalizing w d src with
  | zero => exact ⟨w, rfl, h⟩
  | succ n ih =>
    rw [WindowDecoder.instructionLoop, feed]
    cases readEncoderInstruction src with
    | error e => exact ⟨w, rfl, h⟩
    | ok r =>
      have hstep := h.handleInstruction r.1
      simp only
      cases hd : handleEncoderInstruction d r.1 with
      | error e =>
        rw [hd] at hstep
        rw [show w.handleInstruction r.1 = _ from hstep]
        exact ⟨w, rfl, h⟩
      | ok d' =>
        rw [hd] at hstep
        obtain ⟨w', hw', h'⟩ := hstep
        rw [hw']
        exact ih h' r.2

end

-- ==== the run

/-- What holds of the table and the history of a decoder. -/
structure WindowInv (w : WindowDecoder) : Prop where
  numBytes : w.table.numBytes =
    entriesSize (w.inserted.drop (w.table.baseOffset - 1))
  room : w.table.numBytes ≤ w.table.maxSize
  maxSize : w.table.maxSize ≤ w.headerTableSize
  count : w.table.baseOffset + (w.table.last - w.table.first) =
    w.totalInserts + 1
  inserted : w.inserted.length = w.totalInserts
  /-- An index from the base on is a position in the history. -/
  resolve : ∀ index : Int, w.table.resolve index =
    .ok (if w.table.baseOffset ≤ index then w.inserted[(index - 1).toNat]?
      else none)
  /-- The entry a `Duplicate` refers to before it is the one it inserts. -/
  duplicate : ∀ index < w.table.last - w.table.first, ∃ e w',
    w.table.resolve (w.totalInserts - index) = .ok (some e) ∧
    w.duplicate index = .ok (.ok w') ∧ w'.inserted = w.inserted ++ [e] ∧
    w'.table.resolve w'.totalInserts = .ok (some e)

/-- An index leads to what was inserted with it. -/
theorem Follows.resolve_eq (h : Follows w d) (index : Int) :
    w.table.resolve index =
      .ok (if w.table.baseOffset ≤ index then w.inserted[(index - 1).toNat]?
        else none) := by
  obtain ⟨refs, hholds⟩ := h.table
  have hbase := h.recorded.base
  rw [hholds.baseOffset]
  unfold WindowTable.resolve
  by_cases hle : (d.table.baseOffset : Int) ≤ index
  · obtain ⟨n, rfl⟩ := Int.eq_ofNat_of_zero_le (show 0 ≤ index by omega)
    have hlist : d.table.resolveDynamicAbs n = w.inserted[n - 1]? := by
      rw [HeaderTable.resolveDynamicAbs, if_neg (by omega), h.recorded.entries,
        getElem?_drop]
      congr 1
      omega
    have hpos : ((n : Int) - 1).toNat = n - 1 := by omega
    rw [if_pos hle, hpos, ← hlist]
    obtain ⟨hnone, hnone'⟩ | ⟨p, e, hsome, hsome', hderef⟩ := hholds.resolve n
    · rw [hnone, hnone']
      rfl
    · rw [hsome, hsome']
      simp only [hderef, bind, Except.bind]
      rfl
  · have hout : w.table.resolveDynamicAbs index = .ok none := by
      rw [WindowTable.resolveDynamicAbs, hholds.baseOffset, if_pos (by omega)]
    rw [if_neg hle, hout]
    rfl

theorem Follows.windowInv (h : Follows w d) (hd : DecoderInv d) :
    WindowInv w := by
  obtain ⟨refs, hholds⟩ := h.table
  have hcount := hd.count
  have hlen : w.inserted.length = w.totalInserts := by
    have htotal := h.recorded.total
    rw [h.totalInserts]
    omega
  refine ⟨?_, ?_, ?_, ?_, hlen, h.resolve_eq, ?_⟩
  · rw [hholds.numBytes, d.table.numBytes_eq, h.recorded.entries,
      hholds.baseOffset]
  · rw [hholds.numBytes, hholds.maxSize]
    exact hd.room
  · rw [hholds.maxSize, h.headerTableSize]
    exact hd.maxSize
  · rw [hholds.baseOffset, hholds.count, h.totalInserts, hcount]
    rfl
  · intro index hindex
    rw [hholds.count] at hindex
    have hbase := h.recorded.base
    have hentries := h.recorded.entries
    have htotal := h.recorded.total
    unfold HeaderTable.totalInserts at htotal
    have hpos : w.totalInserts - 1 - index < w.inserted.length := by omega
    have hentry : d.table.entries.reverse[index]? =
        some w.inserted[w.totalInserts - 1 - index] := by
      rw [getElem?_reverse hindex, hentries, getElem?_drop,
        ← getElem?_eq_getElem hpos]
      congr 1
      rw [← hentries]
      omega
    obtain ⟨w', hdup, hw', hinserted⟩ := h.duplicate_some hentry
    refine ⟨_, w', ?_, hdup, hinserted, ?_⟩
    · rw [h.resolve_eq, if_pos (by rw [hholds.baseOffset]; omega),
        ← getElem?_eq_getElem hpos]
      congr 2
      omega
    · -- the copy is the newest entry
      obtain ⟨refs', hholds'⟩ := hw'.table
      have htotal' := hw'.recorded.total
      have hnew : w'.totalInserts = w.inserted.length + 1 := by
        rw [hw'.totalInserts]
        show d.totalInserts + 1 = _
        rw [hlen, h.totalInserts]
      have hone : 1 ≤ (Qpack.decoderInsert d
          w.inserted[w.totalInserts - 1 - index]).table.entries.length := by
        simp [Qpack.decoderInsert, HeaderTable.insert]
      rw [hinserted, length_append, length_singleton,
        HeaderTable.totalInserts] at htotal'
      have hlast : ((w'.totalInserts : Int) - 1).toNat =
          w.inserted.length := by omega
      rw [hw'.resolve_eq, if_pos (by rw [hholds'.baseOffset]; omega), hlast,
        hinserted, getElem?_concat_length]

/-- A decoder on the window, with one on the list that it follows. -/
def Sound (w : WindowDecoder) : Prop := ∃ d, Follows w d ∧ DecoderInv d

/-- No input makes a fault. -/
theorem Sound.handleInput (h : Sound w) (src : Bytes) :
    ∃ w', w.handleInput src = .ok w' ∧ Sound w' := by
  obtain ⟨d, hfollows, hd⟩ := h
  obtain ⟨w', hloop, hw'⟩ := hfollows.instructionLoop src.length src
  refine ⟨w', ?_, _, hw', feed_keeps (fun h hi =>
    h.instructed (instructed_handleEncoderInstruction h _ _ hi)) hd _ _⟩
  rw [WindowDecoder.handleInput, hloop]
  rfl

/-- Whatever arrives on the encoder stream, no assertion of the table fails;
its size is that of its entries and within the limits; its indices and the
number of insertions agree; an index resolves to the entry inserted at that
position as long as it is in the table; and a `Duplicate` inserts the entry it
refers to. -/
theorem decoderTable_inv (headerTableSize : UInt32) (srcs : List Bytes) :
    ∃ w, srcs.foldlM WindowDecoder.handleInput (.create headerTableSize) =
      .ok w ∧ WindowInv w := by
  have hstart : Sound (.create headerTableSize) :=
    ⟨.create headerTableSize 0,
      ⟨⟨[], inWindow_nil (Nat.le_refl 0), rfl, Shared.owns_empty, rfl, rfl,
      rfl, rfl, .inl rfl⟩, ⟨Nat.le_refl 1, rfl, rfl⟩, rfl, rfl, rfl⟩,
      .create _ _⟩
  obtain ⟨w, hrun, d, hfollows, hd⟩ :=
    run_of_total (fun _ src h => Sound.handleInput h src) hstart srcs
  exact ⟨w, hrun, hfollows.windowInv hd⟩

end H2o.Qpack
