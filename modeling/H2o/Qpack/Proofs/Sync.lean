/-
The two dynamic tables.

The encoder stream is a string of insertions; a decoder with a table of the
same size that reads it holds what the encoder holds, as long as every name
reference names the entry that was meant. It need not: the encoder sends the
absolute index of the entry, the decoder counts back from its newest
(`nameRefOk`).

# The argument

`InSync` relates the tables, `Reads` the encoder stream to the decoder that
has read it. One call of `do_flatten_header` adds one instruction or none
(`Synced.header`), a section keeps the relation by an induction over its calls
(`run_invariant`), and a session by one over its events.
-/
import H2o.Lib.Reads
import H2o.Qpack.Proofs.Calls
import H2o.Qpack.Proofs.Flatten
import H2o.Qpack.Proofs.Input
import H2o.Qpack.Proofs.Ledger
import H2o.Qpack.Proofs.Wire

namespace H2o.Qpack

open Hpack Lib List

variable {d d' : Decoder} {t : HeaderTable} {name : Name} {q : Encoder}
  {i staticIndex : Int} {dc ex isExact likely : Bool} {value : Bytes}

-- ==== the relation

def Entry.field (e : Entry) : Name × Bytes := (e.name, e.value)

/-- The decoder's table holds the fields of `t` at the same indices. -/
structure InSync (t : HeaderTable) (d : Decoder) : Prop where
  fields : d.table.entries.map Entry.field = t.entries.map Entry.field
  base : d.table.baseOffset = t.baseOffset
  maxSize : d.table.maxSize = t.maxSize
  count : d.totalInserts + 1 = d.table.totalInserts
  unblocked : d.blocked = [] ∧ d.numUnblocked = 0

theorem InSync.length (h : InSync t d) :
    d.table.entries.length = t.entries.length := by
  simpa using congrArg List.length h.fields

theorem InSync.numBytes (h : InSync t d) : d.table.numBytes = t.numBytes := by
  have hsize : ∀ es : List Entry,
      entriesSize es = ((es.map Entry.field).map fun f =>
        f.1.bytes.length + f.2.length + headerEntrySizeOffset).sum := by
    intro es
    rw [map_map]
    rfl
  rw [d.table.numBytes_eq, t.numBytes_eq, hsize, hsize, h.fields]

theorem InSync.totalInserts (h : InSync t d) :
    d.table.totalInserts = t.totalInserts := by
  rw [HeaderTable.totalInserts, HeaderTable.totalInserts, h.base, h.length]

/-- The same index gives the same field. -/
theorem InSync.resolve (h : InSync t d) (i : Nat) :
    (d.table.resolveDynamicAbs i).map Entry.field =
      (t.resolveDynamicAbs i).map Entry.field := by
  unfold HeaderTable.resolveDynamicAbs
  rw [h.base]
  split
  · rfl
  · rw [← getElem?_map, ← getElem?_map, h.fields]

/-- Adding a field to both tables. -/
theorem InSync.insert {t : HeaderTable} {d : Decoder} (h : InSync t d)
    {name : Name} {value : Bytes} {s s' : SoftErrors}
    (hroom : t.numBytes + (Entry.mk name value s).size ≤ t.maxSize) :
    InSync (t.insert ⟨name, value, s⟩)
      (decoderInsert d ⟨name, value, s'⟩) := by
  have hroom' : d.table.numBytes + (Entry.mk name value s').size ≤
      d.table.maxSize := by
    rw [h.numBytes, h.maxSize]
    exact hroom
  exact
    { fields := by
        simp [decoderInsert, HeaderTable.insert_entries hroom,
          HeaderTable.insert_entries hroom', h.fields, Entry.field]
      base := by
        simp [decoderInsert, HeaderTable.insert_baseOffset hroom,
          HeaderTable.insert_baseOffset hroom', h.base]
      maxSize := by simp [decoderInsert, h.maxSize]
      count := by
        simp [decoderInsert, HeaderTable.insert_totalInserts hroom', h.count]
      unblocked := h.unblocked }

-- ==== instructions

/-- An instruction of the encoder stream, whatever follows it. -/
def Instructs (d : Decoder) (e : Bytes) (_ : Unit) (d' : Decoder) : Prop :=
  ∀ rest, instruction d (e ++ rest) = .ok (d', rest)

theorem Instructs.ne_nil {e : Bytes} (h : Instructs d e () d') : e ≠ [] := by
  rintro rfl
  have := h []
  simp [instruction] at this

theorem instructions_of_reads {bs : Bytes} {outs : List Unit}
    (h : Reads Instructs d bs outs d') {n : Nat} (hn : bs.length ≤ n) :
    instructions n d bs = (d', .ok []) := by
  induction h generalizing n with
  | nil d => cases n <;> rfl
  | @cons d d₁ d₂ e es out outs hne hitem _ ih =>
    have hlen : 0 < e.length := length_pos_iff.mpr hne
    rw [length_append] at hn
    obtain ⟨n, rfl⟩ : ∃ m, n = m + 1 := ⟨n - 1, by omega⟩
    rw [instructions, if_neg (by simp [hne]), hitem es]
    exact ih (by omega)

/-- The decoder counts `index` back from its newest entry. -/
def nameRefTarget (t : HeaderTable) (index : Int) : Option Entry :=
  t.resolveDynamicAbs (t.totalInserts - 1 - index.toNat)

/-- If the call adds an entry whose name it takes from the dynamic table, the
reference that is sent leads the decoder to this name. -/
def nameRefOk (ctx : FlattenCtx) : Call → Bool
  | .staticIndexed _ => true
  | .header staticIndex _ likely name value _ =>
    match ctx.qpack, ctx.encoderBuf with
    | some q, some _ =>
      match lookupDynamic q name value false with
      | .ok (i, false) =>
        if staticIndex < 0 ∧ 0 ≤ i ∧
          insertsEntry q staticIndex i likely name value then
          (nameRefTarget q.table i).any fun e => e.name == name
        else true
      | _ => true
    | _, _ => true

theorem emitInsert_append (buf : Bytes) (staticIndex dynamicIndex : Int)
    (name : Name) (value : Bytes) :
    emitInsert buf staticIndex dynamicIndex name value =
      buf ++ emitInsert [] staticIndex dynamicIndex name value := by
  unfold emitInsert
  split
  · exact emitInsertWithNameref_append _ _ _ _
  · split
    · exact emitInsertWithNameref_append _ _ _ _
    · simp [emitInsertWithoutNameref]

section

variable (hT : TableInv q.table) (h : InSync q.table d)
  (hwf : (Call.header staticIndex isExact likely name value dc).WellFormed)
  (hl : lookupDynamic q name value false = .ok (i, ex))
  (hins : insertsEntry q staticIndex i likely name value = true)
  (href : staticIndex < 0 → 0 ≤ i → ∃ e, nameRefTarget q.table i = some e ∧
    e.name = name)
include hT h hwf hl hins href

/-- The instruction for a field that is added reaches its insertion. -/
theorem instruction_emitInsert (hv : value.length ≤ int64Max) (rest : Bytes) :
    ∃ isHuff body, DecodesTo isHuff body value ∧
      instruction d (emitInsert [] staticIndex i name value ++ rest) =
        (decodeValueAndInsert d name .none isHuff body).map fun d =>
          (d, rest) := by
  have htoken := hwf.1 (likely_of_insertsEntry hins)
  unfold emitInsert
  by_cases hs : staticIndex ≥ 0
  · obtain ⟨t, v, rfl, hres, -⟩ := hwf.2 hs
    obtain ⟨k, rfl⟩ := Int.eq_ofNat_of_zero_le hs
    have hk : k ≤ int64Max := by
      rw [resolveStaticAbs, Option.map_eq_some_iff] at hres
      obtain ⟨e, he, -⟩ := hres
      have hlt := (List.getElem?_eq_some_iff.mp he).1
      exact hlt.le.trans (by decide)
    obtain ⟨isHuff, body, hdec, heq⟩ :=
      @instruction_insertWithNameref d true k value hk hv rest
    refine ⟨isHuff, body, hdec, heq.trans ?_⟩
    rw [Int.toNat_natCast] at hres
    simp [insertWithNameReference, hres]
  · rw [if_neg hs]
    by_cases hi : i ≥ 0
    · obtain ⟨e, he, hname⟩ := href (by omega) hi
      have hlt := (lookupDynamic_lt hT hl).1
      have htotal := hT.total_lt
      obtain ⟨k, rfl⟩ := Int.eq_ofNat_of_zero_le hi
      have hk : k ≤ int64Max := by
        simp only [int64Max]
        omega
      obtain ⟨isHuff, body, hdec, heq⟩ :=
        @instruction_insertWithNameref d false k value hk hv rest
      refine ⟨isHuff, body, hdec, heq.trans ?_⟩
      have hsync := h.resolve (q.table.totalInserts - 1 - k)
      rw [nameRefTarget, Int.toNat_natCast] at he
      rw [he, Option.map_some, Option.map_eq_some_iff] at hsync
      obtain ⟨e', he', hfield⟩ := hsync
      have hname' : e'.name = name :=
        (congrArg Prod.fst hfield : e'.name = e.name).trans hname
      have hle : ¬ k > q.table.totalInserts - 1 := by omega
      simp [insertWithNameReference, h.totalInserts, he', hname', htoken, hle]
    · rw [if_neg hi]
      cases name with
      | token t => exact instruction_insertWithoutNameref hv t rest
      | buf b => cases htoken

/-- The instruction for a field that is added makes the decoder add it. -/
theorem instructs_emitInsert :
    Instructs d (emitInsert [] staticIndex i name value) ()
      (decoderInsert d ⟨name, value, softErrorsOf .none value false⟩) := by
  have hroom := room_of_insertsEntry hins
  have hsmall := hT.small
  have hsize : name.bytes.length + value.length + headerEntrySizeOffset ≤
      d.table.maxSize := by
    rw [h.maxSize]
    simp only [Entry.size] at hroom
    omega
  have hv : value.length ≤ int64Max := by
    rw [h.maxSize] at hsize
    simp only [int64Max]
    omega
  intro rest
  obtain ⟨isHuff, body, hdec, heq⟩ :=
    instruction_emitInsert hT h hwf hl hins href hv rest
  rw [heq, decodeValueAndInsert, hdec .none]
  exact congrArg (Except.map _) (if_neg (Nat.not_lt.mpr hsize))

end

-- ==== sections, sessions

/-- A decoder that has read this stream has the fields of this table. -/
def Synced (d₀ : Decoder) (stream : Bytes) (t : HeaderTable) : Prop :=
  ∃ d outs, Reads Instructs d₀ stream outs d ∧ InSync t d

/-- A call keeps the decoder that reads the encoder stream in step. -/
theorem Synced.call {d₀ : Decoder} {stream : Bytes} {q₀ q' : Encoder}
    {ctx ctx' : FlattenCtx} (h : CtxInv q₀ ctx q)
    (hsync : Synced d₀ (ctx.encoderBuf.getD stream) q.table) {c : Call}
    (hwf : c.WellFormed) (hok : nameRefOk ctx c = true)
    (hrun : c.run ctx = .ok ctx') (h' : CtxInv q₀ ctx' q') :
    Synced d₀ (ctx'.encoderBuf.getD stream) q'.table := by
  have hsame : ctx'.qpack = ctx.qpack → ctx'.encoderBuf = ctx.encoderBuf →
      Synced d₀ (ctx'.encoderBuf.getD stream) q'.table := by
    intro hq hb
    rw [h.qpack, h'.qpack, Option.some.injEq] at hq
    rwa [hb, hq]
  cases c with
  | staticIndexed index =>
    cases hrun
    exact hsame rfl rfl
  | header staticIndex isExact likely name value dc =>
    cases doFlattenHeader_step h.qpack hrun with
    | static => exact hsame rfl rfl
    | indexed => exact hsame rfl rfl
    | literal =>
      exact hsame (flattenLiteral_qpack ..) (flattenLiteral_encoderBuf ..)
    | @insert i ex buf hbuf hl hx hins =>
      obtain rfl := Option.some.inj h'.qpack
      obtain ⟨d, outs, hreads, hd⟩ := hsync
      have hitem := instructs_emitInsert h.table hd hwf hl hins fun hs hi => by
        obtain rfl : ex = false := by simpa [hi] using hx
        simp only [nameRefOk, h.qpack, hbuf, hl, hs, hi, hins, and_self] at hok
        cases hr : nameRefTarget q.table i with
        | none => simp [hr] at hok
        | some e => exact ⟨e, rfl, by simpa [hr] using hok⟩
      rw [hbuf] at hreads
      have hreads' := hreads.snoc hitem.ne_nil hitem
      rw [← emitInsert_append] at hreads'
      exact ⟨_, _, hreads', hd.insert (room_of_insertsEntry hins)⟩

/-- Whether no step of a session leaves the table's range, and whether every
name reference on the encoder stream leads to the name that was meant. -/
def EncoderState.SyncCond (s : EncoderState) : EncoderEvent → Prop
  | .flatten streamId supplied m =>
    SearchInRange s.encoder supplied ∧
      Meets Call.run (fun ctx c => nameRefOk ctx c = true)
        (prepareFlatten (some s.encoder) streamId (s.buf supplied)) m.calls
  | .input _ => True

instance (s : EncoderState) : DecidablePred (EncoderState.SyncCond s)
  | .flatten .. => by unfold EncoderState.SyncCond; infer_instance
  | .input _ => .isTrue trivial

/-- What a session keeps. -/
structure SyncInv (d₀ : Decoder) (s : EncoderState) : Prop where
  table : TableInv s.encoder.table
  synced : Synced d₀ s.stream s.encoder.table

theorem SyncInv.create (size : UInt32) (maxBlocked maxBlocked' : UInt16) :
    SyncInv (.create size maxBlocked') (.create size maxBlocked) where
  table := ⟨rfl, Nat.zero_le _, size.toNat_lt⟩
  synced := ⟨_, [], .nil _, ⟨rfl, rfl, rfl, rfl, rfl, rfl⟩⟩

theorem SyncInv.step {d₀ : Decoder} {s : EncoderState} (h : SyncInv d₀ s)
    {e : EncoderEvent} (hcond : s.SyncCond e) :
    ∃ s', s.step e = .ok s' ∧ SyncInv d₀ s' := by
  cases e with
  | input src =>
    refine ⟨_, rfl, ?_, ?_⟩
    · exact (encoderHandleInput_table s.encoder src).symm ▸ h.table
    · exact (encoderHandleInput_table s.encoder src).symm ▸ h.synced
  | flatten streamId supplied m =>
    obtain ⟨hsearch, hrefs⟩ := hcond
    obtain ⟨ctx, q', hrun, hinv, hstart, -⟩ :=
      calls_ok h.table (startsInRange_prepare hsearch streamId) m.calls
    have hstep : ∀ ctx c ctx', (∃ q', CtxInv s.encoder ctx q' ∧
          Synced d₀ (ctx.encoderBuf.getD s.stream) q'.table) →
        nameRefOk ctx c = true ∧ c.WellFormed → Call.run ctx c = .ok ctx' →
        ∃ q', CtxInv s.encoder ctx' q' ∧
          Synced d₀ (ctx'.encoderBuf.getD s.stream) q'.table := by
      rintro ctx c ctx' ⟨q', hinv, hsync⟩ ⟨hok, hwf⟩ hrun
      obtain ⟨q'', hinv'⟩ := hinv.call hrun
      exact ⟨q'', hinv', Synced.call hinv hsync hwf hok hrun hinv'⟩
    have hbegin : (prepareFlatten (some s.encoder) streamId
        (s.buf supplied)).encoderBuf.getD
        s.stream = s.stream := by
      unfold prepareFlatten EncoderState.buf
      simp only
      split <;> cases supplied <;> rfl
    obtain ⟨q'', hinv', hsync⟩ := run_invariant hstep
      ⟨s.encoder, .prepare h.table streamId _, hbegin.symm ▸ h.synced⟩
      (hrefs.and (meets_of_forall (wellFormed_message m) _)) hrun
    obtain rfl : q' = q'' :=
      Option.some.inj (hinv.qpack.symm.trans hinv'.qpack)
    have hstep' := (m.flatten_eq (some s.encoder) streamId
      (s.buf supplied)).trans (flatten_eq hrun hinv hstart)
    refine ⟨_, by rw [EncoderState.step, hstep'], ?_, ?_⟩
    · show TableInv (q'.sent _ _).table
      rw [sent_table]
      exact hinv.table
    · show Synced d₀ ((ctx.encoderBuf.or (s.buf supplied)).getD s.stream)
        (q'.sent _ _).table
      rw [sent_table]
      cases hb : ctx.encoderBuf <;> cases supplied <;> rwa [hb] at hsync

/-- The decoder's table after the encoder stream holds the encoder's fields,
at the same indices, as long as the name references on it lead to the names
that were meant. -/
theorem decoder_table_of_session (size : UInt32)
    (maxBlocked maxBlocked' : UInt16) (events : List EncoderEvent)
    (h : Meets EncoderState.step EncoderState.SyncCond
      (.create size maxBlocked) events) :
    ∃ s d, events.foldlM EncoderState.step (.create size maxBlocked) = .ok s ∧
      handleInput (.create size maxBlocked') s.stream =
        some (d, .ok ([], [])) ∧
      (∀ i, (d.table.resolveDynamicAbs i).map Entry.field =
        (s.encoder.table.resolveDynamicAbs i).map Entry.field) ∧
      d.table.totalInserts = s.encoder.table.totalInserts ∧
      d.totalInserts + 1 = s.encoder.table.totalInserts := by
  obtain ⟨s, hrun, hinv⟩ := run_of_meets (fun _ _ hs hc => SyncInv.step hs hc)
    (SyncInv.create size maxBlocked maxBlocked') h
  obtain ⟨d, outs, hreads, hd⟩ := hinv.synced
  refine ⟨s, d, hrun, ?_, hd.resolve, hd.totalInserts,
    hd.count.trans hd.totalInserts⟩
  -- no stream waits for either decoder
  have hzero : (Decoder.create size maxBlocked').numUnblocked = 0 := rfl
  unfold handleInput removeUnblocked
  simp only [hzero, ne_eq, not_true_eq_false, if_false, Option.map_some,
    instructions_of_reads hreads le_rfl]
  rw [hd.unblocked.1]
  simp only [unblockLoop, length_nil, range_zero, map_nil]
  rw [← hd.unblocked.1, ← hd.unblocked.2]

/-- The third request adds an entry by a reference to the first entry, which
is the second newest of two. -/
def agreeingEvents : List EncoderEvent :=
  [fieldEvent 0 "priority" "u=1", fieldEvent 4 "origin" "https://a",
    .input [0x02], fieldEvent 8 "priority" "u=2, i=?0"]

theorem decoder_table_of_agreeingEvents :
    ∃ s d, agreeingEvents.foldlM EncoderState.step (.create 4096 100) = .ok s ∧
      handleInput (.create 4096 100) s.stream = some (d, .ok ([], [])) ∧
      (∀ i, (d.table.resolveDynamicAbs i).map Entry.field =
        (s.encoder.table.resolveDynamicAbs i).map Entry.field) ∧
      d.table.totalInserts = s.encoder.table.totalInserts ∧
      d.totalInserts + 1 = s.encoder.table.totalInserts :=
  decoder_table_of_session 4096 100 100 agreeingEvents (by decide +kernel)

/-- With one entry in the table, the absolute index of that entry is one past
what the decoder can count back to. -/
theorem name_reference_by_absolute_index_rejected :
    (match [fieldEvent 0 "priority" "u=1",
      fieldEvent 4 "priority" "u=2, i=?0"].foldlM
          EncoderState.step (.create 4096 100) with
      | .ok s => (handleInput (.create 4096 100) s.stream).map Prod.snd
      | .error _ => none) = some (.error (.qpackDecompressionFailed
          (some .invalidDynamicReference))) := by
  decide +kernel

end H2o.Qpack
