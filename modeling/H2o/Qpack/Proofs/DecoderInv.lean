/-
What holds of every decoder that a session reaches, whatever its peers send.

The counter of inserts and the table agree, the table is within the size the
decoder was created with, and the soft errors recorded with an entry are those
of its value. All that an instruction does is to insert an entry or to change
the maximum size (`Instructed`), which keeps this; parsing a section only
touches the list of blocked streams.
-/
import H2o.Lib.Ensures
import H2o.Qpack.Proofs.Receive
import H2o.Qpack.Session

namespace H2o.Qpack

open Hpack Lib List Option Except

variable {d d' : Decoder} {src : Bytes}

/-- The recorded soft errors: the name of a token has none, and the value has
those of its characters. -/
structure EntrySound (e : Entry) : Prop where
  name : e.softErrors.invalidName = true → lookupToken e.name.bytes = none
  value : e.softErrors.invalidValue = valueIsInvalid e.value

structure DecoderInv (d : Decoder) : Prop where
  count : d.totalInserts + 1 = d.table.totalInserts
  base : 1 ≤ d.table.baseOffset
  room : d.table.numBytes ≤ d.table.maxSize
  maxSize : d.table.maxSize ≤ d.headerTableSize
  small : d.headerTableSize < 2 ^ 32
  maxEntries : d.maxEntries = d.headerTableSize / 32
  sound : ∀ e ∈ d.table.entries, EntrySound e

theorem DecoderInv.create (headerTableSize : UInt32) (maxBlocked : UInt16) :
    DecoderInv (.create headerTableSize maxBlocked) :=
  ⟨rfl, le_rfl, Nat.zero_le _, le_rfl, headerTableSize.toNat_lt, rfl, nofun⟩

-- ==== instructions

theorem DecoderInv.insert {d : Decoder} (h : DecoderInv d) {e : Entry}
    (hsize : e.size ≤ d.table.maxSize) (he : EntrySound e) :
    DecoderInv (decoderInsert d e) := by
  have hev := d.table.evict_evicted e.size
  have hbase := h.base
  have hcount := h.count
  have htotal := hev.totalInserts
  have hbase' := hev.baseOffset
  refine ⟨?_, ?_, ?_, ?_, h.small, h.maxEntries, ?_⟩
  · simp only [decoderInsert, HeaderTable.insert, HeaderTable.totalInserts,
      length_append, length_singleton] at hcount htotal ⊢
    omega
  · simp only [decoderInsert, HeaderTable.insert]
    omega
  · simp only [decoderInsert, HeaderTable.insert, hev.maxSize]
    exact hev.room hsize
  · simp only [decoderInsert, HeaderTable.insert_maxSize]
    exact h.maxSize
  · intro x hx
    simp only [decoderInsert, HeaderTable.insert, mem_append,
      mem_singleton] at hx
    rcases hx with hx | rfl
    · exact h.sound x (hev.entries.subset hx)
    · exact he

/-- What an instruction does to the decoder: an entry that fits is inserted, or
the maximum size of the table is changed. -/
inductive Instructed (d : Decoder) : Decoder → Prop where
  | insert {e : Entry} (hsize : e.size ≤ d.table.maxSize) (he : EntrySound e) :
      Instructed d (decoderInsert d e)
  | resize {maxSize : Nat} (hle : maxSize ≤ d.headerTableSize) :
    Instructed d { d with
        table := HeaderTable.evict { d.table with maxSize := maxSize } 0 }

theorem instructed_decodeValueAndInsert {name : Name} {soft : SoftErrors}
    {isHuff : Bool} {qstr : Bytes}
    (hname : soft.invalidName = true → lookupToken name.bytes = none)
    (hvalue : soft.invalidValue = false) :
    Ensures (Instructed d) (decodeValueAndInsert d name soft isHuff qstr) := by
  unfold decodeValueAndInsert
  split
  · exact .error _
  next v soft' hv =>
    obtain rfl : soft' = softErrorsOf soft v false := by
      unfold decodeValue at hv
      split at hv
      · exact (bits_of_decodeHuffman hv).2
      · cases hv
        exact validateHeaderValue_softErrorsOf _ _
    refine .dite (fun _ => .error _) fun hsize =>
      .ok (.insert (Nat.le_of_not_gt hsize) ⟨hname, ?_⟩)
    simp [softErrorsOf, hvalue]

theorem instructed_duplicate (h : DecoderInv d) {index : Nat} :
    Ensures (Instructed d) (duplicate d index) := by
  unfold duplicate
  split
  · exact .error _
  next e he =>
    have hmem : e ∈ d.table.entries := mem_reverse.mp (mem_of_getElem? he)
    have hsize : e.size ≤ entriesSize d.table.entries :=
      single_le_sum (fun _ _ => Nat.zero_le _) _ (mem_map_of_mem hmem)
    have hroom := h.room
    rw [d.table.numBytes_eq] at hroom
    exact .ok (.insert (by omega) (h.sound e hmem))

/-- One case per instruction. -/
theorem instructed_handleEncoderInstruction (h : DecoderInv d)
    (i : EncoderInstruction) :
    Ensures (Instructed d) (handleEncoderInstruction d i) := by
  cases i with
  | insertWithNameReference =>
    refine .ite ?_ (.ite (.error _) ?_)
    · split
      · exact .error _
      · exact instructed_decodeValueAndInsert nofun rfl
    · split
      · exact .error _
      next e he =>
        have hmem : e ∈ d.table.entries := by
          unfold HeaderTable.resolveDynamicAbs at he
          split at he
          · cases he
          · exact mem_of_getElem? he
        exact .ite (instructed_decodeValueAndInsert nofun rfl)
          (instructed_decodeValueAndInsert (h.sound e hmem).name rfl)
  | insertWithoutNameReference =>
    unfold handleEncoderInstruction insertWithoutNameReference
    dsimp only
    split
    · exact .error _
    next name soft hdec =>
      split
      · exact instructed_decodeValueAndInsert nofun rfl
      next ht =>
        refine instructed_decodeValueAndInsert (fun _ => ht) ?_
        -- only the name has been validated so far
        split at hdec
        · rw [(bits_of_decodeHuffman hdec).2]
          rfl
        · split at hdec
          · cases hdec
          next hval =>
            cases hdec
            exact congrArg SoftErrors.invalidValue (validateHeaderName_ok hval)
  | duplicate => exact instructed_duplicate h
  | dynamicTableSizeUpdate =>
    exact .dite (fun _ => .error _) fun hle =>
      .ok (.resize (Nat.le_of_not_gt hle))

theorem DecoderInv.instructed (h : DecoderInv d) (hi : Instructed d d') :
    DecoderInv d' := by
  cases hi with
  | insert hsize he => exact h.insert hsize he
  | @resize maxSize hle =>
    have hev := HeaderTable.evict_evicted { d.table with maxSize := maxSize } 0
    have hbase := h.base
    have hbase' := hev.baseOffset
    refine ⟨?_, ?_, ?_, ?_, h.small, h.maxEntries, ?_⟩
    · rw [hev.totalInserts]
      exact h.count
    · simp only at hbase' ⊢
      omega
    · rw [hev.maxSize]
      exact hev.room (Nat.zero_le _)
    · rw [hev.maxSize]
      exact hle
    · exact fun e he => h.sound e (hev.entries.subset he)

/-- What every instruction keeps is kept by the loop. -/
theorem instructions_invariant {I : Decoder → Prop}
    (hstep : ∀ d d', DecoderInv d → I d → Instructed d d' → I d') {n : Nat}
    (hd : DecoderInv d) (h : I d) :
    DecoderInv (instructions n d src).1 ∧ I (instructions n d src).1 := by
  rw [instructions_eq]
  refine feed_keeps (I := fun d => DecoderInv d ∧ I d) (fun h hi => ?_) ⟨hd,
    h⟩ n src
  have hi := instructed_handleEncoderInstruction h.1 _ _ hi
  exact ⟨h.1.instructed hi, hstep _ _ h.1 h.2 hi⟩

-- ==== events

/-- A property of decoders that every instruction keeps, and in which the list
of blocked streams plays no part. -/
structure Carried (I : Decoder → Prop) : Prop where
  instructed : ∀ {d d'}, DecoderInv d → I d → Instructed d d' → I d'
  frame : ∀ {d} blocked n, I d →
    I { d with blocked := blocked, numUnblocked := n }

theorem carried_decoderInv : Carried DecoderInv where
  instructed _ h hi := h.instructed hi
  frame _ _ h := ⟨h.count, h.base, h.room, h.maxSize, h.small, h.maxEntries,
    h.sound⟩

section Carried

variable {I : Decoder → Prop}

theorem Carried.parseDecodeContext (hI : Carried I) (h : I d) (streamId : Int)
    (src : Bytes) : I (Qpack.parseDecodeContext d streamId src).1 := by
  unfold Qpack.parseDecodeContext
  simp only
  repeat' split
  all_goals first | exact h | exact hI.frame _ _ h

theorem Carried.removeUnblocked (hI : Carried I) (h : I d)
    (hr : Qpack.removeUnblocked d = some d') : I d' := by
  unfold Qpack.removeUnblocked at hr
  simp only at hr
  split at hr
  · split at hr
    · exact some.inj hr ▸ hI.frame _ _ h
    · cases hr
  · exact some.inj hr ▸ h

/-- A whole input keeps it. -/
theorem Carried.handleInput (hI : Carried I) (hd : DecoderInv d) (h : I d)
    {r : Except Error (Bytes × List Int)}
    (hin : Qpack.handleInput d src = some (d', r)) : I d' := by
  obtain ⟨d₁, hd₁, hin⟩ := map_eq_some_iff.mp hin
  have hloop : I (instructions src.length d₁ src).1 :=
    (instructions_invariant (fun _ _ hd h => hI.instructed hd h)
      (carried_decoderInv.removeUnblocked hd hd₁)
      (hI.removeUnblocked h hd₁)).2
  cases hr : instructions src.length d₁ src with
  | mk d₂ r₂ =>
    rw [hr] at hin hloop
    cases r₂ with
    | error e => exact (Prod.mk.inj hin).1 ▸ hloop
    | ok rest => exact (Prod.mk.inj hin).1 ▸ hI.frame _ _ hloop

/-- And each event. -/
theorem Carried.step {s s' : DecoderState} (hI : Carried I)
    (hd : DecoderInv s.decoder) (h : I s.decoder) {e : DecoderEvent}
    (hs : s.step e = .ok s') : I s'.decoder := by
  cases e with
  | parse streamId src =>
    have hp := hI.parseDecodeContext h streamId src
    unfold DecoderState.step at hs
    simp only at hs
    split at hs <;> obtain rfl := ok.inj hs <;> simp_all
  | input src =>
    unfold DecoderState.step at hs
    simp only at hs
    split at hs
    · cases hs
    next hin => exact ok.inj hs ▸ hI.handleInput hd h hin
    next hin => exact ok.inj hs ▸ hI.handleInput hd h hin

end Carried

/-- Every decoder that a session reaches. -/
theorem DecoderInv.run {headerTableSize : UInt32} {maxBlocked : UInt16}
    {events : List DecoderEvent} {s : DecoderState}
    (hrun : events.foldlM DecoderState.step
      (.create headerTableSize maxBlocked) = .ok s) :
    DecoderInv s.decoder :=
  run_keeps (I := fun s : DecoderState => DecoderInv s.decoder)
    (fun _ _ _ h hs => carried_decoderInv.step h h hs)
    (DecoderInv.create headerTableSize maxBlocked) hrun

end H2o.Qpack
