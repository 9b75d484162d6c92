/-
The round trip of header blocks.

# One field

`Item t e d t'`: the octets `e` are read as the field `d` and take the
decoder's table from `t` to `t'`, whatever follows. Every call of the encoder
writes an item of its field, and afterwards the tables still mirror each other
(`Mirrors.call`): the encoder's entries begin the decoder's list, so an index
the encoder has found is that of the same field there, and an addition keeps
one a beginning of the other although only the encoder's is limited to 32.

# Blocks

A block is an update of the capacity and then items. The update is read
together with the item after it; a block that has none cannot be read.
-/
import H2o.Hpack.Session
import H2o.Lib.Reads

namespace H2o.Hpack

open Lib List Option Bool

variable {dec enc t t' : HeaderTable} {e rest src value : Bytes} {name : Name}
  {soft : SoftErrors} {d : Decoded} {c nameIndex : Nat} {m : Message}
  {dontCompress : Bool} {es : List Entry}

-- ==== items

/-- The octets `e` are read as `d`, whatever follows. -/
def Item (t : HeaderTable) (e : Bytes) (d : Decoded) (t' : HeaderTable) :
    Prop :=
  ∀ n rest, decodeHeaderLoop (n + 1) t (e ++ rest) = .ok (t', d, rest)

/-- Nothing is read from an empty string. -/
theorem Item.ne_nil (h : Item t e d t') : e ≠ [] := by
  rintro rfl
  cases h 0 []

/-- The soft errors of a field whose name has those of `soft`. -/
def valueSoftErrors (soft : SoftErrors) (value : Bytes) : SoftErrors :=
  softErrorsOf { soft with invalidValue := false } value false

theorem decodeIndex_of {p v : Nat} (h : decodeInt src p = .ok (v, rest))
    (hv : 0 < v) : decodeIndex src p = .ok (v, rest) := by
  rw [decodeIndex, h]
  simp only [if_neg (show ¬ v = 0 by omega)]

/-- An indexed field. -/
theorem item_indexed {index : Nat} (hpos : 0 < index) (hmax : index ≤ int64Max)
    (h : lookupIndex t ⟨index, true, false⟩ = .ok (name, some value, soft)) :
    Item t (encodeInt 0x80 index 7) ⟨name, value, soft⟩ t := by
  obtain ⟨b, tl, hb, hbn, hdec⟩ :=
    @encodeInt_spec 0x80 7 index (by decide) rfl hmax
  have h128 : (0x80 : UInt8).toNat = 128 := rfl
  intro n rest
  rw [hb, cons_append, decodeHeaderLoop, if_pos (by omega),
    decodeIndex_of (hdec rest) hpos]
  simp only [decodeField, determineName, h, if_pos (show index > 0 by omega)]

/-- The value that follows a name, and the addition. -/
theorem decodeField_literal {r : Representation} {soft' : SoftErrors}
    {src' : Bytes}
    (hname : determineName t r src = .ok (name, none, soft, src'))
    (hvalue : decodeString { soft with invalidValue := false } src' false =
      .ok (value, soft', rest)) :
    decodeField t r src =
      .ok (if r.doIndex then t.add ⟨name, value, soft'⟩ none else t,
        ⟨name, value, soft'⟩, rest) := by
  rw [decodeField, hname]
  simp only [hvalue]

theorem determineName_index {r : Representation} (hpos : 0 < r.index)
    (h : lookupIndex t r = .ok (name, none, soft)) (src : Bytes) :
    determineName t r src = .ok (name, none, soft, src) := by
  rw [determineName, if_pos hpos, h]

/-- A literal with a name by octets, and added to the table: the value is any
literal that reads back. -/
theorem item_incremental_newName {t : HeaderTable} {name written : Bytes}
    (hlower : IsLower name) (hname : name.length < 2 ^ 31) {value : Bytes}
    (hwritten : ∀ soft rest, decodeString soft (written ++ rest) false =
      .ok (value, softErrorsOf soft value false, rest)) :
    ∃ soft, Item t (0x40 :: encodeString name ++ written)
      ⟨.intern name, value, soft⟩
      (t.add ⟨.intern name, value, soft⟩ none) := by
  refine ⟨valueSoftErrors (softErrorsOf .none name true) value,
    fun n rest => ?_⟩
  rw [append_assoc, cons_append, decodeHeaderLoop,
    if_neg (by decide), if_pos (by decide)]
  refine decodeField_literal ?_ (hwritten _ _)
  rw [determineName, if_neg (by simp), decodeString_encodeString hname fun _ =>
    hlower]

/-- A literal with a name by index that is not added: the value is any literal
that reads back. -/
theorem item_withoutIndexing {t : HeaderTable} {m : UInt8} {index : Nat}
    (hm : m = 0 ∨ m = 0x10) (hpos : 0 < index) (hmax : index ≤ int64Max)
    {name : Name} {soft : SoftErrors}
    (h : lookupIndex t ⟨index, false, false⟩ = .ok (name, none, soft))
    {value : Bytes} (hlen : value.length ≤ int64Max) :
    Item t (encodeInt m index 4 ++ encodeAsIs value)
      ⟨name, value, valueSoftErrors soft value⟩ t := by
  have hmn : m.toNat = 0 ∨ m.toNat = 16 := by
    rcases hm with rfl | rfl
    · exact .inl rfl
    · exact .inr rfl
  obtain ⟨b, tl, hb, hbn, hdec⟩ :=
    @encodeInt_spec m 4 index (by decide) (by omega) hmax
  have hp : prefixMax 4 = 15 := rfl
  intro n rest
  rw [append_assoc, hb, cons_append, decodeHeaderLoop,
    if_neg (by omega), if_neg (by omega), if_pos (by omega),
    if_neg (by omega), decodeIndex_of (hdec _) hpos]
  exact decodeField_literal (determineName_index hpos h _)
    (decodeString_encodeAsIs hlen nofun)

-- ==== indices

/-- The static entry of an index. -/
theorem lookupIndex_static {t : HeaderTable} {r : Representation}
    (hlt : r.index < headerTableOffset) {token : Token} {value : String}
    (h : hpackStaticTable[r.index - 1]? = some (token, value)) :
    lookupIndex t r = .ok (.token token,
      if r.valueIsIndexed then some (ascii value) else none,
        .none) := by
  rw [lookupIndex, if_pos hlt, h]

theorem lookupIndex_dynamic {k : Nat} {e : Entry} (h : t.entries[k]? = some e)
    (valueIsIndexed doIndex : Bool) :
    lookupIndex t ⟨k + headerTableOffset, valueIsIndexed, doIndex⟩ =
      .ok (e.name, if valueIsIndexed then some e.value else none,
        e.softErrors) := by
  rw [lookupIndex, if_neg (by simp), Nat.add_sub_cancel, h]

/-- What the token array says about the static table: an index is that of an
entry with the token's name, and a token that is not to be compressed has
one. -/
theorem tokenNameIndex_ok : ∀ t : Token, (tokenNameIndex (.token t) ≠ 0 →
      tokenNameIndex (.token t) < headerTableOffset ∧
        (hpackStaticTable[tokenNameIndex (.token t) - 1]?).map Prod.fst =
          some t) ∧
    (tokenDontCompress (.token t) = true → tokenNameIndex (.token t) ≠ 0) := by
  decide +kernel

/-- One entry of the search: it may give the name index, and it ends the
search if the value is right too. -/
theorem searchLoop_cons (name : Name) (value : Bytes) (e : Entry)
    (es : List Entry) (pos nameIndex : Nat) :
    ∃ ni, (ni = nameIndex ∨ ni = pos + headerTableOffset ∧
      e.name.bytes = name.bytes) ∧
      (searchLoop name value (e :: es) pos nameIndex =
        searchLoop name value es (pos + 1) ni ∨
        searchLoop name value (e :: es) pos nameIndex =
          (some (pos + headerTableOffset), ni) ∧
          e.field = (name.bytes, value)) := by
  cases name with
  | token t =>
    refine ⟨nameIndex, .inl rfl, ?_⟩
    rw [searchLoop]
    split
    · exact .inl rfl
    next hn =>
      split
      next hv =>
        exact .inr ⟨rfl, Prod.ext (congrArg Name.bytes (not_not.mp hn).symm)
          hv.symm⟩
      next => exact .inl rfl
  | buf b =>
    rw [searchLoop]
    split
    · exact ⟨nameIndex, .inl rfl, .inl rfl⟩
    next hn =>
      have hbytes : e.name.bytes = b := (not_not.mp hn).symm
      refine ⟨if nameIndex = 0 then pos + headerTableOffset
        else nameIndex, ?_, ?_⟩
      · split
        · exact .inr ⟨rfl, hbytes⟩
        · exact .inl rfl
      · simp only
        split
        next hv => exact .inr ⟨rfl, Prod.ext hbytes hv.symm⟩
        next => exact .inl rfl

/-- What the search finds: an entry with the name and the value, and an index
of the name if there was none. -/
theorem searchLoop_spec {pos : Nat}
    {found : Option Nat} {nameIndex' : Nat}
    (h : searchLoop name value es pos nameIndex = (found, nameIndex')) :
    (∀ i ∈ found, ∃ k e, es[k]? = some e ∧ i = pos + k + headerTableOffset ∧
      e.field = (name.bytes, value)) ∧
    (nameIndex' = nameIndex ∨ ∃ k e, es[k]? = some e ∧
      nameIndex' = pos + k + headerTableOffset ∧
      e.name.bytes = name.bytes) := by
  induction es generalizing pos nameIndex with
  | nil =>
    cases h
    exact ⟨nofun, .inl rfl⟩
  | cons e es ih =>
    obtain ⟨ni, hni, hrun⟩ := searchLoop_cons name value e es pos nameIndex
    have hhere : ni = nameIndex ∨ ∃ k e', (e :: es)[k]? = some e' ∧
        ni = pos + k + headerTableOffset ∧ e'.name.bytes = name.bytes :=
      hni.imp_right fun h => ⟨0, e, rfl, h⟩
    rcases hrun with hrun | ⟨hrun, hf⟩
    · rw [hrun] at h
      obtain ⟨hfound, hname⟩ := ih h
      refine ⟨fun i hi => ?_, ?_⟩
      · obtain ⟨k, e', hk, rfl, hf⟩ := hfound i hi
        exact ⟨k + 1, e', hk, by omega, hf⟩
      · rcases hname with rfl | ⟨k, e', hk, rfl, hf⟩
        · exact hhere
        · exact .inr ⟨k + 1, e', hk, by omega, hf⟩
    · rw [hrun] at h
      cases h
      refine ⟨?_, hhere⟩
      rintro _ ⟨⟩
      exact ⟨0, e, rfl, rfl, hf⟩

/-- The name or the field has an index: a token may have one in the static
table or that of an entry with the same value, another name may have that of
an entry. -/
def Indexed (es : List Entry) (name : Name) (value : Bytes) (nameIndex : Nat) :
    Prop :=
  nameIndex ≠ 0 ∨ ∃ e ∈ es, match name with
    | .token t => e.name = .token t ∧ e.value = value
    | .buf b => e.name.bytes = b

/-- The search finds nothing where there is no index. -/
theorem searchLoop_eq_none_iff {pos : Nat} :
    searchLoop name value es pos nameIndex = (none, 0) ↔
      ¬Indexed es name value nameIndex := by
  induction es generalizing pos nameIndex with
  | nil => simp [searchLoop, Indexed]
  | cons e es ih =>
    cases name with
    | token t =>
      rw [searchLoop]
      split
      next hn =>
        rw [ih]
        simp [Indexed, Ne.symm hn]
      next hn =>
        split
        next hv => simp [Indexed, ← not_not.1 hn, hv]
        next hv =>
          rw [ih]
          simp [Indexed, Ne.symm hv]
    | buf b =>
      rw [searchLoop]
      split
      next hn =>
        rw [ih]
        simp [Indexed, Ne.symm hn]
      next hn =>
        -- the name has an index from here on
        have hindexed : Indexed (e :: es) (.buf b) value nameIndex :=
          .inr ⟨e, mem_cons_self, (not_not.1 hn).symm⟩
        refine iff_of_false ?_ (not_not_intro hindexed)
        simp only
        split
        · simp
        · rw [ih]
          refine not_not_intro (.inl ?_)
          split
          · exact Nat.succ_ne_zero _
          · assumption

-- ==== mirrors

theorem Mirrors.create {capacity maxCapacity : Nat}
    (h : capacity ≤ maxCapacity) :
    Mirrors (.create capacity maxCapacity) (.create capacity maxCapacity) :=
  ⟨rfl, h, prefix_rfl, Nat.zero_le _⟩

/-- An entry of the encoder is at the same place in the decoder's table. -/
theorem Mirrors.at (h : Mirrors enc dec) {k : Nat} {e : Entry}
    (hk : enc.entries[k]? = some e) :
    k < 32 ∧ ∃ e', dec.entries[k]? = some e' ∧ e'.field = e.field := by
  have hshort := h.short
  obtain ⟨hlt, -⟩ := List.getElem?_eq_some_iff.mp hk
  have hfield : enc.fields[k]? = some e.field := by
    rw [HeaderTable.fields, getElem?_map, hk]
    rfl
  have hdec : dec.fields[k]? = some e.field := by
    obtain ⟨rest, hrest⟩ := h.entries
    rw [← hrest, getElem?_append_left]
    · exact hfield
    · exact (List.getElem?_eq_some_iff.mp hfield).1
  rw [HeaderTable.fields, getElem?_map, map_eq_some_iff] at hdec
  exact ⟨by omega, hdec⟩

theorem Mirrors.add (h : Mirrors enc dec) {e e' : Entry}
    (he : e'.field = e.field) :
    Mirrors (enc.add e (some 32)) (dec.add e' none) := by
  have hpos : ∀ n ∈ some 32, 0 < n := by
    rintro _ ⟨⟩
    decide
  obtain ⟨hcap, -⟩ := HeaderTable.sameCapacity_add hpos enc e
  obtain ⟨hcap', hmax'⟩ := @HeaderTable.sameCapacity_add none nofun dec e'
  obtain ⟨hbegin, -⟩ := HeaderTable.fields_add hpos enc e
  obtain ⟨-, hdec⟩ := @HeaderTable.fields_add none nofun dec e'
  refine ⟨?_, ?_, ?_, HeaderTable.add_length_le (by decide) enc e⟩
  · rw [hcap, hcap', h.capacity]
  · rw [hcap, hmax']
    exact h.maxCapacity
  · rw [hdec rfl, he, h.capacity]
    exact hbegin.trans (HeaderTable.addFields_isPrefix h.entries _)

theorem Mirrors.resize {enc dec : HeaderTable} (h : Mirrors enc dec) {c : Nat}
    (hc : c ≤ enc.hpackCapacity) :
    Mirrors (enc.resize c) (dec.resize c) := by
  have hmax := h.maxCapacity
  refine ⟨?_, ?_, ?_, ?_⟩
  · rw [HeaderTable.resize_hpackCapacity, HeaderTable.resize_hpackCapacity]
  · rw [HeaderTable.resize_hpackCapacity, HeaderTable.resize_hpackMaxCapacity]
    omega
  · rw [HeaderTable.fields_resize, HeaderTable.fields_resize]
    exact takeFit_isPrefix h.entries
  · have hlen : (enc.resize c).fields.length ≤ enc.fields.length := by
      rw [HeaderTable.fields_resize]
      exact (takeFit_isPrefix_self _ _).length_le
    simp only [HeaderTable.fields, length_map] at hlen
    exact hlen.trans h.short

/-- An index that the decoder resolves to a name. -/
def NameAt (t : HeaderTable) (index : Nat) (name : Bytes) : Prop :=
  0 < index ∧ index ≤ int64Max ∧ ∀ doIndex, ∃ n soft,
    lookupIndex t ⟨index, false, doIndex⟩ = .ok (n, none, soft) ∧
      n.bytes = name

/-- The name index of a search, unless there is none. -/
theorem Mirrors.nameAt (h : Mirrors enc dec) {found : Option Nat}
    (hs : searchLoop name value enc.entries 0 (tokenNameIndex name) =
      (found, nameIndex)) (hne : nameIndex ≠ 0) :
    NameAt dec nameIndex name.bytes := by
  have hmax : headerTableOffset + 32 ≤ int64Max := by decide
  rcases (searchLoop_spec hs).2 with rfl | ⟨k, e, hk, rfl, hname⟩
  · cases name with
    | token t =>
      obtain ⟨hlt, hmap⟩ := (tokenNameIndex_ok t).1 hne
      obtain ⟨⟨t, v⟩, hv, rfl⟩ := map_eq_some_iff.mp hmap
      refine ⟨by omega, by omega, fun doIndex =>
        ⟨.token t, .none, lookupIndex_static hlt hv, rfl⟩⟩
    | buf b => exact absurd rfl hne
  · obtain ⟨hlt, e', he', hfield⟩ := h.at hk
    refine ⟨by omega, by omega, fun doIndex =>
      ⟨e'.name, e'.softErrors, ?_, ?_⟩⟩
    · rw [Nat.zero_add]
      exact lookupIndex_dynamic he' false doIndex
    · rw [← hname]
      exact congrArg Prod.fst hfield

-- ==== calls

/-- The name and the value can be written and read. A field that the caller
does not want compressed is named by a token that is not to be either. -/
def HeaderOk (name : Name) (value : Bytes) (dontCompress : Bool) : Prop :=
  IsLower name.bytes ∧ name.bytes.length < 2 ^ 31 ∧ value.length < 2 ^ 31 ∧
    (dontCompress = true → tokenDontCompress name = true)

/-- A literal with incremental indexing. -/
def isIncremental (src : Bytes) : Bool :=
  src.head?.any fun b => 64 ≤ b.toNat && b.toNat < 128

theorem isIncremental_encodeInt {m : UInt8} {v p : Nat} (hp : p ≤ 8)
    (hm : m.toNat % 2 ^ p = 0) (rest : Bytes) :
    isIncremental (encodeInt m v p ++ rest) =
      decide (64 ≤ m.toNat + min v (prefixMax p) ∧
        m.toNat + min v (prefixMax p) < 128) := by
  obtain ⟨b, tl, hb, hbn⟩ : ∃ b tl, encodeInt m v p = b :: tl ∧
      b.toNat = _ := encodeInt_eq_cons hp hm
  rw [hb, ← hbn]
  simp [isIncremental]

/-- What both ends do to their tables for a field. The octets are a literal
with incremental indexing and both add the field, for which there is room in
both or in none; or they are not, and none does. -/
def SameUpdate (enc enc' dec dec' : HeaderTable) (f : Bytes × Bytes)
    (octets : Bytes) : Prop :=
  (isIncremental octets = false ∧ enc' = enc ∧ dec' = dec) ∨
    isIncremental octets = true ∧ ∃ e e', e.field = f ∧ e'.field = f ∧
      enc' = enc.add e (some 32) ∧ dec' = dec.add e' none ∧
      (e.size ≤ enc.hpackCapacity ↔ e'.size ≤ dec.hpackCapacity)

/-- Both ends add a field. -/
theorem Mirrors.sameUpdate_add (h : Mirrors enc dec) {soft : SoftErrors}
    {n : Name} (hn : n.bytes = name.bytes) (hinc : isIncremental e = true) :
    SameUpdate enc (enc.add ⟨name, value, .none⟩ (some 32)) dec
      (dec.add ⟨n, value, soft⟩ none) (name.bytes, value) e := by
  have hfield : Entry.field ⟨n, value, soft⟩ = (name.bytes, value) := by
    rw [Entry.field, hn]
  refine .inr ⟨hinc, _, _, rfl, hfield, rfl, rfl, ?_⟩
  rw [Entry.size, Entry.size, hfield, h.capacity]
  rfl

/-- `do_encode_header` writes an item of the field, and the ends update their
tables alike. -/
theorem Mirrors.header_update (h : Mirrors enc dec)
    (hlower : IsLower name.bytes) (hname : name.bytes.length < 2 ^ 31)
    (hvalue : value.length < 2 ^ 31)
    (hindex : dontCompress = true → value.length < 20 →
      Indexed enc.entries name value (tokenNameIndex name)) :
    ∃ d dec', Item dec (doEncodeHeader enc name value dontCompress).2 d dec' ∧
      d.field = (name.bytes, value) ∧
      SameUpdate enc (doEncodeHeader enc name value dontCompress).1 dec dec'
        (name.bytes, value)
        (doEncodeHeader enc name value dontCompress).2 := by
  have hoff : headerTableOffset = 62 := rfl
  have hmax' : (2 : Nat) ^ 31 ≤ int64Max := by decide
  unfold doEncodeHeader
  cases hs : searchLoop name value enc.entries 0 (tokenNameIndex name) with
  | mk found nameIndex =>
    cases found with
    | some index =>
      -- name and value matched
      obtain ⟨k, e, hk, rfl, hf⟩ := (searchLoop_spec hs).1 index rfl
      obtain ⟨hlt, e', he', hfield⟩ := h.at hk
      refine ⟨⟨e'.name, e'.value, e'.softErrors⟩, dec, ?_, hfield.trans hf,
        .inl ⟨?_, rfl, rfl⟩⟩
      · refine item_indexed (by omega) (by omega) ?_
        rw [Nat.zero_add]
        exact lookupIndex_dynamic he' true false
      · have h128 : (0x80 : UInt8).toNat = 128 := rfl
        show isIncremental (encodeInt 0x80 (0 + k + headerTableOffset) 7) = _
        rw [← append_nil (encodeInt _ _ _),
          isIncremental_encodeInt (by decide) rfl, decide_eq_false_iff_not]
        omega
    | none =>
      simp only
      by_cases hzero : nameIndex = 0
      · -- a new name
        obtain ⟨soft, hitem⟩ :=
          item_incremental_newName (t := dec) hlower hname
          fun _ _ => decodeString_encodeString hvalue nofun
        have hnone : ¬Indexed enc.entries name value (tokenNameIndex name) :=
          searchLoop_eq_none_iff.1 (hs.trans (by rw [hzero]))
        -- without an index of the name a field is compressed
        have hcompressed : ¬((dontCompress || tokenDontCompress name) &&
            decide (value.length < 20)) = true := by
          rw [and_eq_true, or_eq_true, decide_eq_true_iff]
          rintro ⟨hd | hd, hshort⟩
          · exact hnone (hindex hd hshort)
          · cases name with
            | token t => exact hnone (.inl ((tokenNameIndex_ok t).2 hd))
            | buf b => cases hd
        simp only [hcompressed, false_eq_true, if_false, hzero, ne_eq,
          not_true_eq_false]
        exact ⟨_, _, hitem, by simp [Decoded.field],
          h.sameUpdate_add (by simp) rfl⟩
      · obtain ⟨hpos, hle, hat⟩ := h.nameAt hs hzero
        rw [if_pos hzero]
        split
        · -- never indexed
          obtain ⟨n, soft, hlook, hn⟩ := hat false
          have hitem := item_withoutIndexing (.inr rfl) hpos hle hlook
            (by omega : value.length ≤ int64Max)
          refine ⟨_, _, hitem, by rw [Decoded.field, hn], .inl ⟨?_, rfl, rfl⟩⟩
          have h16 : (0x10 : UInt8).toNat = 16 := rfl
          have hp : prefixMax 4 = 15 := rfl
          rw [isIncremental_encodeInt (by decide) rfl, decide_eq_false_iff_not]
          omega
        · obtain ⟨n, soft, hlook, hn⟩ := hat true
          have h64 : (0x40 : UInt8).toNat = 64 := rfl
          have hp : prefixMax 6 = 63 := rfl
          refine ⟨⟨n, value, valueSoftErrors soft value⟩,
            dec.add ⟨n, value, valueSoftErrors soft value⟩ none,
              fun m rest => ?_, by rw [Decoded.field, hn],
              h.sameUpdate_add hn ?_⟩
          · obtain ⟨b, tl, hb, hbn, hdec⟩ :=
              @encodeInt_spec 0x40 6 nameIndex (by decide) rfl hle
            rw [append_assoc, hb, cons_append, decodeHeaderLoop,
              if_neg (by omega), if_pos (by omega), if_neg (by omega),
              decodeIndex_of (hdec _) hpos]
            exact decodeField_literal (determineName_index hpos hlook _)
              (decodeString_encodeString hvalue nofun)
          · rw [isIncremental_encodeInt (by decide) rfl, decide_eq_true_iff]
            omega

theorem Mirrors.header (h : Mirrors enc dec)
    (hok : HeaderOk name value dontCompress) :
    ∃ d dec', Item dec (doEncodeHeader enc name value dontCompress).2 d dec' ∧
      d.field = (name.bytes, value) ∧
      Mirrors (doEncodeHeader enc name value dontCompress).1 dec' := by
  obtain ⟨hlower, hname, hvalue, hdont⟩ := hok
  have hindex : dontCompress = true → value.length < 20 →
      Indexed enc.entries name value (tokenNameIndex name) := by
    intro hd _
    cases name with
    | token t => exact .inl ((tokenNameIndex_ok t).2 (hdont hd))
    | buf b => cases hdont hd
  obtain ⟨d, dec', hitem, hfield, hu⟩ :=
    h.header_update hlower hname hvalue hindex
  refine ⟨d, dec', hitem, hfield, ?_⟩
  rcases hu with ⟨-, henc, rfl⟩ | ⟨-, e, e', he, he', henc, rfl, -⟩
  · rwa [henc]
  · exact henc ▸ h.add (he'.trans he.symm)

/-- The static entry an octet stands for. -/
def staticOctet (octet : UInt8) : Option (Token × String) :=
  if 128 < octet.toNat then hpackStaticTable[octet.toNat - 128 - 1]? else none

def Call.WellFormed : Call → Prop
  | indexed octet => (staticOctet octet).isSome
  | status code => 100 ≤ code ∧ code ≤ 999
  | contentLength _ => True
  | header name value dontCompress => HeaderOk name value dontCompress

/-- The field of a call. -/
def Call.field : Call → Bytes × Bytes
  | indexed octet =>
    match staticOctet octet with
    | some (t, v) => (t.buf, ascii v)
    | none => ([], [])
  | status code => (Token.status.buf, decimal code)
  | contentLength value => (Token.contentLength.buf, decimal value)
  | header name value _ => (name.bytes, value)

theorem item_staticOctet {octet : UInt8} {token : Token} {v : String}
    (h : staticOctet octet = some (token, v)) :
    Item t [octet] ⟨.token token, ascii v, .none⟩ t := by
  unfold staticOctet at h
  split at h
  next hlt =>
    obtain ⟨hlen, -⟩ := List.getElem?_eq_some_iff.mp h
    change _ < 61 at hlen
    have hoff : headerTableOffset = 62 := rfl
    have hp : prefixMax 7 = 127 := rfl
    have h128 : (0x80 : UInt8).toNat = 128 := rfl
    have hmax : 61 ≤ int64Max := by decide
    -- the octet is an index in one octet
    have hoctet : encodeInt 0x80 (octet.toNat - 128) 7 = [octet] := by
      rw [encodeInt, encodeIntIsOnebyte, if_pos (by simpa using by omega),
        cons.injEq, ← UInt8.toNat_inj,
        @toNat_or_of_mod_eq_zero 0x80 7 (by decide) rfl _ (by omega)]
      exact ⟨by omega, rfl⟩
    have hlook := @lookupIndex_static t ⟨octet.toNat - 128, true, false⟩
      (show octet.toNat - 128 < headerTableOffset by omega) token v h
    rw [if_pos rfl] at hlook
    rw [← hoctet]
    exact item_indexed (by omega) (by omega) hlook
  next => cases h

/-- A literal by the static index 8 or 28, with the digits of a number. -/
theorem item_digits {t : HeaderTable} {index : Nat} (hpos : 0 < index)
    (hlt : index < headerTableOffset) {token : Token} {v : String}
    (h : hpackStaticTable[index - 1]? = some (token, v)) (digits : Bytes)
    (hlen : digits.length ≤ 20) :
    ∃ soft, Item t (encodeInt 0 index 4 ++ UInt8.ofNat digits.length :: digits)
      ⟨.token token, digits, soft⟩ t := by
  have hoff : headerTableOffset = 62 := rfl
  have hmax : 62 ≤ int64Max := by decide
  have hp : prefixMax 7 = 127 := rfl
  have hliteral : encodeAsIs digits = UInt8.ofNat digits.length :: digits := by
    rw [encodeAsIs, encodeInt, encodeIntIsOnebyte,
      if_pos (by simpa using by omega)]
    simp
  rw [← hliteral]
  have hitem := @item_withoutIndexing t 0 index (.inl rfl) hpos (by omega) _ _
    (lookupIndex_static hlt h) digits (by omega)
  exact ⟨_, hitem⟩

theorem length_decimal_status {n : Nat} (hlo : 100 ≤ n) (hhi : n ≤ 999) :
    (decimal n).length = 3 := by
  rw [decimal, decimalLoop, if_neg (by omega), decimalLoop,
    if_neg (by omega), decimalLoop, if_pos (by omega)]
  rfl

/-- Every call writes an item of its field. -/
theorem Mirrors.call (h : Mirrors enc dec) {c : Call} (hwf : c.WellFormed) :
    ∃ d dec', Item dec (c.run enc).2 d dec' ∧ d.field = c.field ∧
      Mirrors (c.run enc).1 dec' := by
  cases c with
  | indexed octet =>
    obtain ⟨⟨t, v⟩, hv⟩ := isSome_iff_exists.mp hwf
    refine ⟨_, dec, item_staticOctet hv, ?_, h⟩
    rw [Call.field, hv]
    rfl
  | status code =>
    obtain ⟨hlo, hhi⟩ := hwf
    have hlen := length_decimal_status hlo hhi
    have hstatic : hpackStaticTable[8 - 1]? = some (.status, "200") := rfl
    obtain ⟨soft, hitem⟩ := @item_digits dec 8 (by decide) (by decide) _ _
      hstatic (decimal code) (by omega)
    rw [hlen] at hitem
    exact ⟨_, dec, hitem, rfl, h⟩
  | contentLength value =>
    have hstatic : hpackStaticTable[28 - 1]? = some (.contentLength, "") := rfl
    obtain ⟨soft, hitem⟩ := @item_digits dec 28 (by decide) (by decide) _ _
      hstatic (decimal value) (length_decimalLoop_le 20 value [])
    exact ⟨_, dec, hitem, rfl, h⟩
  | header name value dontCompress => exact h.header hwf

/-- The calls of a message write items of their fields. -/
theorem Mirrors.calls (h : Mirrors enc dec) {cs : List Call}
    (hwf : ∀ c ∈ cs, c.WellFormed) :
    ∃ ds dec', Reads Item dec (runCalls enc cs).2 ds dec' ∧
      ds.map Decoded.field = cs.map Call.field ∧
      Mirrors (runCalls enc cs).1 dec' := by
  induction cs generalizing enc dec with
  | nil => exact ⟨[], dec, .nil dec, rfl, h⟩
  | cons c cs ih =>
    obtain ⟨hc, hcs⟩ := forall_mem_cons.mp hwf
    obtain ⟨d, dec₁, hitem, hfield, h₁⟩ := h.call hc
    obtain ⟨ds, dec', hreads, hfields, h'⟩ := ih h₁ hcs
    refine ⟨d :: ds, dec', .cons hitem.ne_nil hitem hreads, ?_, h'⟩
    rw [map_cons, map_cons, hfield, hfields]

-- ==== blocks

theorem decodeHeader_of_item (h : Item t e d t') :
    decodeHeader t (e ++ rest) = .ok (t', d, rest) := by
  obtain ⟨b, tl, rfl⟩ := exists_cons_of_ne_nil h.ne_nil
  exact h _ rest

/-- A short field that is not to be compressed and has no index is written
with its name, and the encoder's table stays as it is. -/
theorem doEncodeHeader_newName
    (hindex : ¬Indexed enc.entries name value (tokenNameIndex name))
    (hshort : value.length < 20) :
    doEncodeHeader enc name value true =
      (enc, 0x40 :: encodeString name.bytes ++ encodeAsIs value) := by
  rw [doEncodeHeader, searchLoop_eq_none_iff.2 hindex]
  simp [hshort]

/-- Items are read to the end. -/
theorem decodeHeaders_of_reads {ds : List Decoded}
    (h : Reads Item t src ds t') {n : Nat} (hn : src.length ≤ n) :
    decodeHeaders n t src = .ok (t', ds) := by
  induction h generalizing n with
  | nil t =>
    cases n with
    | zero => rfl
    | succ n => rw [decodeHeaders, if_pos rfl]
  | @cons t t₁ t' e es d ds hne hitem hrest ih =>
    have hpos := length_pos_iff.mpr hne
    rw [length_append] at hn
    obtain ⟨n, rfl⟩ := Nat.exists_eq_add_one.mpr (by omega : 0 < n)
    have hne' : e ++ es ≠ [] := by
      simp [hne]
    rw [decodeHeaders, if_neg hne', decodeHeader_of_item hitem]
    simp only [ih (show es.length ≤ n by omega)]

section

variable (hc : c ≤ t.hpackMaxCapacity) (hmax : c ≤ int64Max)
include hc hmax

/-- An update of the capacity is read with what follows. -/
theorem decodeHeaderLoop_update (n : Nat) (src : Bytes) :
    decodeHeaderLoop (n + 1) t (encodeInt 0x20 c 5 ++ src) =
      decodeHeaderLoop n (t.resize c) src := by
  obtain ⟨b, tl, hb, hbn, hdec⟩ :=
    @encodeInt_spec 0x20 5 c (by decide) rfl hmax
  have h32 : (0x20 : UInt8).toNat = 32 := rfl
  have hp : prefixMax 5 = 31 := rfl
  rw [hb, cons_append, decodeHeaderLoop, if_neg (by omega),
    if_neg (by omega), if_neg (by omega), hdec]
  simp only [if_neg (show ¬ c > t.hpackMaxCapacity by omega)]

theorem decodeHeader_update (h : Item (t.resize c) e d t') :
    decodeHeader t (encodeInt 0x20 c 5 ++ (e ++ rest)) =
      .ok (t', d, rest) := by
  obtain ⟨b, tl, hb, -⟩ : ∃ b tl, encodeInt 0x20 c 5 = b :: tl ∧
      b.toNat = _ := encodeInt_eq_cons (by decide) rfl
  have hpos := length_pos_iff.mpr h.ne_nil
  obtain ⟨n, hn⟩ : ∃ n, (encodeInt 0x20 c 5 ++ (e ++ rest)).length =
      n + 2 := by
    refine ⟨tl.length + (e.length - 1) + rest.length, ?_⟩
    rw [hb]
    simp only [length_append, length_cons]
    omega
  rw [decodeHeader, hn, decodeHeaderLoop_update hc hmax]
  exact h n rest

/-- The update is read with the first field, so there has to be one. -/
theorem decodeBlock_update {ds : List Decoded}
    (h : Reads Item (t.resize c) src ds t')
    (hne : ds ≠ []) : decodeBlock t (encodeInt 0x20 c 5 ++ src) =
      .ok (t', ds) := by
  cases h with
  | nil => exact absurd rfl hne
  | @cons _ t₁ _ e es d ds he hitem hrest =>
    have hpos := length_pos_iff.mpr he
    have hsrc : encodeInt 0x20 c 5 ++ (e ++ es) ≠ [] := by
      simp [he]
    obtain ⟨n, hn⟩ : ∃ n, (encodeInt 0x20 c 5 ++ (e ++ es)).length =
        n + 1 + es.length := by
      refine ⟨(encodeInt 0x20 c 5).length + (e.length - 1), ?_⟩
      simp only [length_append]
      omega
    rw [decodeBlock, hn, show n + 1 + es.length = n + es.length + 1 by omega,
      decodeHeaders, if_neg hsrc, decodeHeader_update hc hmax hitem]
    simp only [decodeHeaders_of_reads hrest (Nat.le_add_left _ n)]

end

/-- The block of a message is read as its fields. -/
theorem Mirrors.block (h : Mirrors enc dec) {hpackCapacity : UInt32}
    (hwf : ∀ c ∈ m.calls, c.WellFormed)
    (hcarries : m.calls.map Call.field ≠ [] ∨ enc.hpackCapacity ≤
      hpackCapacity.toNat) :
    ∃ ds dec', decodeBlock dec (flattenBlock enc hpackCapacity m).2 =
      .ok (dec', ds) ∧
        ds.map Decoded.field = m.calls.map Call.field ∧
        Mirrors (flattenBlock enc hpackCapacity m).1 dec' := by
  unfold flattenBlock adjustSize
  by_cases hge : hpackCapacity.toNat ≥ enc.hpackCapacity
  · rw [if_pos hge]
    obtain ⟨ds, dec', hreads, hfields, h'⟩ := h.calls hwf
    exact ⟨ds, dec', decodeHeaders_of_reads hreads (by simp), hfields, h'⟩
  rw [if_neg hge]
  have hsmall := hpackCapacity.toNat_lt
  have hint : 2 ^ 32 ≤ int64Max := by decide
  have hmax := h.maxCapacity
  have hresize := @Mirrors.resize _ _ h hpackCapacity.toNat (by omega)
  obtain ⟨ds, dec', hreads, hfields, h'⟩ := hresize.calls hwf
  refine ⟨ds, dec', ?_, hfields, h'⟩
  have hne := hcarries.resolve_right hge
  refine decodeBlock_update (by omega) (by omega) hreads ?_
  rintro rfl
  exact hne hfields.symm

-- ==== messages

theorem headerOk_token {t : Token} {value : Bytes}
    (h : value.length < 2 ^ 31) :
    HeaderOk (.token t) value t.entry.dontCompress := by
  have hlen := length_token_le t
  exact ⟨isLower_token t, show t.buf.length < 2 ^ 31 by omega, h, id⟩

/-- A call that can be written and read, and its field. -/
def Call.Is (c : Call) (f : Bytes × Bytes) : Prop := c.WellFormed ∧ c.field = f

theorem is_encodeHeaderToken (t : Token) (h : value.length < 2 ^ 31) :
    (encodeHeaderToken t value).Is (t.buf, value) :=
  ⟨headerOk_token h, rfl⟩

theorem is_indexed {octet : UInt8} {t : Token} {v : String}
    (h : staticOctet octet = some (t, v)) :
    (Call.indexed octet).Is (t.buf, ascii v) := by
  rw [Call.Is, Call.WellFormed, Call.field, h]
  exact ⟨rfl, rfl⟩

theorem is_encodeMethod (h : value.length < 2 ^ 31) :
    (encodeMethod value).Is (Token.method.buf, value) := by
  unfold encodeMethod
  split
  next hv => exact hv ▸ is_indexed rfl
  next =>
    split
    next hv => exact hv ▸ is_indexed rfl
    next => exact is_encodeHeaderToken .method h

theorem is_encodeScheme {scheme : Scheme} (h : scheme.name.length < 2 ^ 31) :
    (encodeScheme scheme).Is (Token.scheme.buf, scheme.name) := by
  cases scheme with
  | http => exact is_indexed rfl
  | https => exact is_indexed rfl
  | other name => exact is_encodeHeaderToken .scheme h

theorem is_encodePath (h : value.length < 2 ^ 31) :
    (encodePath value).Is (Token.path.buf, value) := by
  unfold encodePath
  split
  next hv => exact hv ▸ is_indexed rfl
  next =>
    split
    next hv => exact hv ▸ is_indexed rfl
    next => exact is_encodeHeaderToken .path h

/-- The octets of the common codes. -/
theorem staticOctet_commonCodes :
    ∀ c ∈ commonCodes, (staticOctet (0x80 ||| UInt8.ofNat c.1)).map
        (fun e => (e.1, ascii e.2)) = some (.status, decimal c.2) := by
  simp only [commonCodes, forall_mem_cons]
  exact ⟨rfl, rfl, rfl, rfl, rfl, rfl, rfl, forall_mem_nil _⟩

theorem is_encodeStatus {status : Nat} (h : 100 ≤ status ∧ status ≤ 999) :
    (encodeStatus status).Is (Token.status.buf, decimal status) := by
  unfold encodeStatus
  split
  next c hc =>
    have hmem := staticOctet_commonCodes c (mem_of_find?_eq_some hc)
    have hs : c.2 = status := by simpa using find?_some hc
    obtain ⟨⟨t, v⟩, he, htv⟩ := map_eq_some_iff.mp hmem
    obtain ⟨rfl, hv⟩ := Prod.mk.inj htv
    rw [← hs, ← hv]
    exact is_indexed he
  next => exact ⟨h, rfl⟩

theorem is_encodeHeader {h : Header} (hh : HeaderWellFormed h) :
    (encodeHeader h).Is h.field := by
  obtain ⟨hlower, hdont, hname, hvalue⟩ := hh
  exact ⟨⟨hlower, hname, hvalue, fun hd => absurd (hdont.symm.trans hd) nofun⟩,
    rfl⟩

theorem is_encodeRequestHeader {h : Header} (hh : HeaderWellFormed h) :
    (encodeRequestHeader h).Is h.field := by
  unfold encodeRequestHeader
  split
  next hv =>
    obtain ⟨hn, hv⟩ := hv
    rw [Header.field, hn, hv]
    exact is_indexed rfl
  next => exact is_encodeHeader hh

/-- Calls made for each of some headers. -/
theorem forall₂_headers {f : Header → Call}
    (hf : ∀ {h}, HeaderWellFormed h → (f h).Is h.field) {headers : List Header}
    (hh : ∀ h ∈ headers, HeaderWellFormed h) :
    List.Forall₂ Call.Is (headers.map f) (headers.map Header.field) := by
  induction headers with
  | nil => exact .nil
  | cons h headers ih =>
    obtain ⟨hhead, htail⟩ := forall_mem_cons.mp hh
    exact .cons (hf hhead) (ih htail)

theorem forall₂_request {r : Request} (h : (Message.request r).WellFormed) :
    List.Forall₂ Call.Is r.calls r.fields := by
  obtain ⟨hmethod, hscheme, hauthority, hpath, hprotocol, hheaders⟩ := h
  have hexpect : (ascii "100-continue").length < 2 ^ 31 := by decide
  have hif : ∀ (b : Bool) {c : Call} {f : Bytes × Bytes}, c.Is f →
      List.Forall₂ Call.Is (if b then [] else [c]) (if b then []
        else [f]) := by
    rintro (_ | _) c f hc
    · exact .cons hc .nil
    · exact .nil
  unfold Request.calls Request.fields
  refine rel_append (rel_append (rel_append (rel_append
    (rel_append (rel_append ?_ ?_) ?_) ?_) ?_) ?_) ?_
  · exact .cons (is_encodeMethod hmethod) .nil
  · exact hif _ (is_encodeScheme hscheme)
  · exact .cons (is_encodeHeaderToken .authority hauthority) .nil
  · exact hif _ (is_encodePath hpath)
  · cases hp : r.protocol with
    | none => exact .nil
    | some p =>
      obtain ⟨hlower, hname, hvalue, -⟩ :=
        @headerOk_token .protocol p (hprotocol p hp)
      exact .cons ⟨⟨hlower, hname, hvalue, nofun⟩, rfl⟩ .nil
  · cases r.sendOwnExpect with
    | false => exact .nil
    | true => exact .cons (is_encodeHeaderToken .expect hexpect) .nil
  · exact forall₂_headers is_encodeRequestHeader hheaders

/-- The calls of a message are those of its fields. -/
theorem forall₂_message (h : m.WellFormed) :
    List.Forall₂ Call.Is m.calls m.fields := by
  cases m with
  | request r => exact forall₂_request h
  | pushPromise p =>
    obtain ⟨hmethod, hscheme, hauthority, hpath, hheaders⟩ := h
    refine rel_append ?_ (forall₂_headers is_encodeRequestHeader hheaders)
    exact .cons (is_encodeMethod hmethod) (.cons (is_encodeScheme hscheme)
      (.cons (is_encodeHeaderToken .authority hauthority)
        (.cons (is_encodePath hpath) .nil)))
  | response r =>
    obtain ⟨hstatus, hserver, hheaders⟩ := h
    refine rel_append (rel_append (rel_append ?_ ?_)
      (forall₂_headers is_encodeHeader hheaders)) ?_
    · exact .cons (is_encodeStatus hstatus) .nil
    · split
      · exact .cons (is_encodeHeaderToken .server hserver) .nil
      · exact .nil
    · cases r.contentLength with
      | none => exact .nil
      | some n => exact .cons ⟨trivial, rfl⟩ .nil
  | trailers headers => exact forall₂_headers is_encodeHeader h

theorem calls_of_forall₂ {cs : List Call} {fs : List (Bytes × Bytes)}
    (h : List.Forall₂ Call.Is cs fs) :
    (∀ c ∈ cs, c.WellFormed) ∧ cs.map Call.field = fs := by
  induction h with
  | nil => exact ⟨nofun, rfl⟩
  | cons hc _ ih =>
    refine ⟨forall_mem_cons.mpr ⟨hc.1, ih.1⟩, ?_⟩
    rw [map_cons, hc.2, ih.2]

theorem statusOk_of_wellFormed (h : m.WellFormed) : m.statusOk = true := by
  cases m with
  | response r => exact decide_eq_true h.1
  | request r => rfl
  | pushPromise p => rfl
  | trailers headers => rfl

-- ==== sessions

/-- One message: its block is written, and read as its fields. -/
theorem Mirrors.step {s : Session} (h : Mirrors s.encoder dec) {e : Event}
    (hwf : e.message.WellFormed) (hcarries : s.Carries e) :
    ∃ enc' block ds dec', s.step e = .ok ⟨enc', s.blocks ++ [block]⟩ ∧
      decodeBlock dec block = .ok (dec', ds) ∧
      ds.map Decoded.field = e.message.fields ∧ Mirrors enc' dec' := by
  obtain ⟨hcalls, hfields⟩ := calls_of_forall₂ (forall₂_message hwf)
  rw [Session.Carries, ← hfields] at hcarries
  obtain ⟨ds, dec', hdec, hds, h'⟩ := h.block hcalls hcarries
  refine ⟨_, _, ds, dec', ?_, hdec, hds.trans hfields, h'⟩
  rw [Session.step, flatten, if_pos (statusOk_of_wellFormed hwf)]

/-- The blocks that a run writes are read as the fields of its messages. -/
theorem Mirrors.run {s : Session} {dec : HeaderTable}
    (h : Mirrors s.encoder dec) {events : List Event}
    (hwf : ∀ e ∈ events, e.message.WellFormed)
    (hmeets : Meets Session.step Session.Carries s events) :
    ∃ enc' blocks dss dec', events.foldlM Session.step s =
      .ok ⟨enc', s.blocks ++ blocks⟩ ∧
      decodeBlocks dec blocks = .ok (dec', dss) ∧
      dss.map (·.map Decoded.field) = events.map (·.message.fields) ∧
      Mirrors enc' dec' := by
  induction events generalizing s dec with
  | nil =>
    refine ⟨s.encoder, [], [], dec, ?_, rfl, rfl, h⟩
    rw [foldlM_except_nil, append_nil]
  | cons e events ih =>
    obtain ⟨he, hevents⟩ := forall_mem_cons.mp hwf
    obtain ⟨hcarries, hrest⟩ := hmeets
    obtain ⟨enc₁, block, ds, dec₁, hstep, hdec, hds, h₁⟩ := h.step he hcarries
    obtain ⟨enc', blocks, dss, dec', hrun, hdecs, hdss, h'⟩ :=
      ih h₁ hevents (hrest _ hstep)
    refine ⟨enc', block :: blocks, ds :: dss, dec', ?_, ?_, ?_, h'⟩
    · rw [foldlM_except_cons, hstep]
      simpa using hrun
    · rw [decodeBlocks, hdec]
      simp only [hdecs]
    · rw [map_cons, map_cons, hds, hdss]

/-- Header blocks, each with a field or without an update of the capacity, are
read exactly, as the fields they were written from, and after each of them the
tables mirror each other. -/
theorem header_blocks_round_trip (hpackCapacity hpackMaxCapacity : Nat)
    (hcapacity : hpackCapacity ≤ hpackMaxCapacity) (events : List Event)
    (hwf : ∀ e ∈ events, e.message.WellFormed)
    (hmeets : Meets Session.step Session.Carries
      (.create hpackCapacity hpackMaxCapacity) events) :
    ∃ s dss dec, events.foldlM Session.step
      (.create hpackCapacity hpackMaxCapacity) = .ok s ∧
      decodeBlocks (.create hpackCapacity hpackMaxCapacity) s.blocks =
        .ok (dec, dss) ∧
      dss.map (·.map Decoded.field) = events.map (·.message.fields) ∧
      Mirrors s.encoder dec := by
  obtain ⟨enc, blocks, dss, dec, hrun, hdec, hdss, h⟩ :=
    @Mirrors.run (.create hpackCapacity hpackMaxCapacity) _
      (Mirrors.create hcapacity) events hwf hmeets
  exact ⟨_, dss, dec, hrun, hdec, hdss, h⟩

/-- A request, a response under a smaller capacity, and trailers that repeat a
field. -/
def sampleEvents : List Event :=
  [⟨4096, .request
      { method := ascii "GET"
        scheme := .https
        authority := ascii "example.org"
        path := ascii "/a"
        protocol := none
        headers := [⟨.token .acceptEncoding, ascii "gzip, deflate", false⟩,
          ⟨.buf (ascii "x-id"), ascii "7", false⟩]
        sendOwnExpect := true }⟩,
    ⟨200, .response
      { status := 200
        headers := [⟨.buf (ascii "x-id"), ascii "7", false⟩]
        serverName := ascii "h2o"
        contentLength := some 5 }⟩,
    ⟨200, .trailers [⟨.buf (ascii "x-id"), ascii "8", false⟩]⟩]

instance (h : Header) : Decidable (HeaderWellFormed h) := by
  unfold HeaderWellFormed
  infer_instance

instance : DecidablePred Message.WellFormed := by
  intro m
  cases m <;> (unfold Message.WellFormed; infer_instance)

instance (s : Session) (e : Event) : Decidable (s.Carries e) := by
  unfold Session.Carries
  infer_instance

theorem header_blocks_round_trip_sampleEvents :
    ∃ s dss dec, sampleEvents.foldlM Session.step (.create 4096 4096) = .ok s ∧
      decodeBlocks (.create 4096 4096) s.blocks = .ok (dec, dss) ∧
      dss.map (·.map Decoded.field) = sampleEvents.map (·.message.fields) ∧
      Mirrors s.encoder dec :=
  header_blocks_round_trip 4096 4096 le_rfl sampleEvents (by decide +kernel)
    (by decide +kernel)

/-- A block that is only an update of the capacity is not accepted. -/
theorem update_without_field_rejected :
    (match [(⟨0, .trailers []⟩ : Event)].foldlM Session.step
      (.create 4096 4096) with
      | .error _ => none
      | .ok s =>
        match decodeBlocks (.create 4096 4096) s.blocks with
        | .ok _ => none
        | .error e => some (s.blocks, e)) =
      some ([[0x20]], .compression) := by
  decide +kernel

end H2o.Hpack
