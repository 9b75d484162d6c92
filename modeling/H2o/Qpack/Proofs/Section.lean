/-
Field sections, from the encoder to the decoder.

A section is a prefix and the lines its calls have appended. The lines are
read back by any decoder whose table has the encoder's fields up to the
largest reference (`LinesInv`); the prefix gives back that reference and the
base index (`parseDecodeContext_sectionPrefix`). The Required Insert Count is
sent without the reduction that its decoding undoes, which is right as long as
no entry has been evicted: then the inserts a decoder has seen are no more
than the entries its table can hold.
-/
import H2o.Lib.Reads
import H2o.Qpack.Proofs.Calls
import H2o.Qpack.Proofs.Flatten
import H2o.Qpack.Proofs.Input
import H2o.Qpack.Proofs.Ledger
import H2o.Qpack.Proofs.Lines
import H2o.Qpack.Proofs.Prefix

namespace H2o.Qpack

open Hpack Lib List Option Except

variable {e : Entry} {t : HeaderTable} {name line : Bytes} {d : Decoder}
  {ctx' : FlattenCtx} {i : Int} {q' : Encoder} {l : Nat}
  {q : Encoder} {ctx : FlattenCtx} {f : Bytes × Bytes}

-- ==== encoder states

/-- Only fields with a token's name are in the table. -/
def TokenTable (t : HeaderTable) : Prop :=
  ∀ e ∈ t.entries, e.name.isToken = true

theorem TokenTable.call {q₀ : Encoder} (h : CtxInv q₀ ctx q)
    (ht : TokenTable q.table) {c : Call} (hwf : c.WellFormed)
    (hrun : c.run ctx = .ok ctx')
    (h' : CtxInv q₀ ctx' q') : TokenTable q'.table := by
  have hsame : ctx'.qpack = ctx.qpack → TokenTable q'.table := by
    intro hq
    rw [h.qpack, h'.qpack, some.injEq] at hq
    rwa [hq]
  cases c with
  | staticIndexed index =>
    cases hrun
    exact hsame rfl
  | header staticIndex isExact likely name value dc =>
    cases doFlattenHeader_step h.qpack hrun with
    | static => exact hsame rfl
    | indexed => exact hsame rfl
    | literal => exact hsame (flattenLiteral_qpack ..)
    | insert hbuf hl hx hins =>
      obtain rfl := some.inj h'.qpack
      intro e he
      rw [HeaderTable.insert_entries (room_of_insertsEntry hins), mem_append,
        mem_singleton] at he
      rcases he with he | rfl
      · exact ht e he
      · exact hwf.1 (likely_of_insertsEntry hins)

/-- What holds of the table of every encoder that a session reaches. -/
structure EncoderInv (q : Encoder) : Prop where
  table : TableInv q.table
  tokens : TokenTable q.table

theorem finalizeFlatten_table {o : Option Encoder} {sec : Bytes}
    (hq : ctx.qpack = some q) (h : finalizeFlatten ctx = .ok (o, sec)) :
    ∃ q', o = some q' ∧ q'.table = q.table := by
  unfold finalizeFlatten at h
  split at h
  · cases h
    exact ⟨q, hq, rfl⟩
  · simp only [hq] at h
    split at h
    · cases h
    · cases h
      exact ⟨_, rfl, rfl⟩

theorem EncoderInv.calls {q₀ : Encoder} {streamId : Int64}
    {buf : Option Bytes} (h : EncoderInv q₀) {calls : List Call}
    (hwf : ∀ c ∈ calls, c.WellFormed)
    (hrun : calls.foldlM Call.run (prepareFlatten (some q₀) streamId buf) =
      .ok ctx) : ∃ q, CtxInv q₀ ctx q ∧ TokenTable q.table := by
  have hstep : ∀ ctx c ctx', (∃ q, CtxInv q₀ ctx q ∧ TokenTable q.table) →
      c.WellFormed → Call.run ctx c = .ok ctx' →
      ∃ q, CtxInv q₀ ctx' q ∧ TokenTable q.table := by
    rintro ctx c ctx' ⟨q, hinv, htok⟩ hc hrun
    obtain ⟨q', hinv'⟩ := hinv.call hrun
    exact ⟨q', hinv', TokenTable.call hinv htok hc hrun hinv'⟩
  exact run_invariant hstep ⟨q₀, .prepare h.table streamId buf, h.tokens⟩
    (meets_of_forall hwf _) hrun

theorem EncoderInv.step {s s' : EncoderState} (h : EncoderInv s.encoder)
    {e : EncoderEvent} (hs : s.step e = .ok s') : EncoderInv s'.encoder := by
  cases e with
  | input src =>
    cases hs
    have htable := encoderHandleInput_table s.encoder src
    exact ⟨htable.symm ▸ h.table, htable.symm ▸ h.tokens⟩
  | flatten streamId supplied m =>
    unfold EncoderState.step at hs
    simp only [m.flatten_eq, flatten] at hs
    cases hc : m.calls.foldlM Call.run
        (prepareFlatten (some s.encoder) streamId (s.buf supplied)) with
    | error e => simp [hc] at hs
    | ok ctx =>
      obtain ⟨q, hinv, htok⟩ := h.calls (wellFormed_message m) hc
      cases hf : finalizeFlatten ctx with
      | error e => simp [hc, hf] at hs
      | ok r =>
        obtain ⟨o, sec⟩ := r
        obtain ⟨q', rfl, htable⟩ := finalizeFlatten_table hinv.qpack hf
        simp only [hc, hf, ok.injEq] at hs
        subst hs
        exact ⟨htable ▸ hinv.table, htable ▸ htok⟩

/-- In every state of a session. -/
theorem EncoderInv.run {size : UInt32} {maxBlocked : UInt16}
    {events : List EncoderEvent} {s : EncoderState}
    (hrun : events.foldlM EncoderState.step (.create size maxBlocked) =
      .ok s) : EncoderInv s.encoder :=
  run_keeps (I := fun s : EncoderState => EncoderInv s.encoder)
    (fun _ _ _ h hs => h.step hs)
    ⟨⟨rfl, Nat.zero_le _, size.toNat_lt⟩, fun _ he =>
      absurd he not_mem_nil⟩ hrun

-- ==== lines

/-- The soft error a value is reported with. -/
def valueError (v : Bytes) : Option Hpack.ErrDesc :=
  if valueIsInvalid v then some .softFoundInvalidCharInHeaderValue else none

/-- A decoded line has this field, and the soft error of its value. -/
def Decoded.Is (out : Decoded) (f : Bytes × Bytes) : Prop :=
  out.name.bytes = f.1 ∧ out.value = f.2 ∧ out.err = valueError f.2

/-- A field as the encoder is promised it. -/
structure FieldOk (f : Bytes × Bytes) : Prop where
  name : NameValid f.1
  nameLength : f.1.length < 2 ^ 31
  valueLength : f.2.length < 2 ^ 31

/-- The decoder's table has the encoder's field at this index. -/
def AgreeAt (t t' : HeaderTable) (i : Nat) : Prop :=
  ∀ e, t'.resolveDynamicAbs i = some e → ∃ e',
    t.resolveDynamicAbs i = some e' ∧ e'.name.bytes = e.name.bytes ∧
      e'.value = e.value ∧ EntrySound e'

theorem Decoded.is_ofSoft_value {name : Name} {v : Bytes} :
    (Decoded.ofSoft name v (softErrorsOf .none v false)).Is (name.bytes,
      v) := by
  refine ⟨rfl, rfl, ?_⟩
  simp [Decoded.ofSoft, softErrorsOf, valueError, SoftErrors.none]

/-- Entries of the static table have no soft errors. -/
theorem valueIsInvalid_static : ∀ e ∈ qpackStaticTable,
    valueIsInvalid (ascii e.2) = false := by decide +kernel

theorem Decoded.is_ofSoft_static {index : Nat} {t : Token} {v : Bytes}
    (h : resolveStaticAbs index = some (t, v)) :
    (Decoded.ofSoft (.token t) v .none).Is (t.buf, v) := by
  rw [resolveStaticAbs, map_eq_some_iff] at h
  obtain ⟨e, he, heq⟩ := h
  cases heq
  refine ⟨rfl, rfl, ?_⟩
  rw [valueError, valueIsInvalid_static e (mem_of_getElem? he)]
  rfl

section

variable (h : EntrySound e) (hname : e.name.bytes = name)
  (htoken : lookupToken name ≠ none)
include h hname htoken

/-- The name of a token is not recorded as invalid. -/
theorem EntrySound.invalidName : e.softErrors.invalidName = false := by
  by_contra hf
  exact htoken (hname ▸ h.name (by simpa using hf))

end

/-- A name that is found in the table is a token's. -/
theorem lookupToken_of_foundAt (h : TokenTable t) {name : Name}
    (hf : FoundAt t name i e) : lookupToken name.bytes ≠ none := by
  rw [← hf.bytes]
  obtain ⟨k, -, hk, -⟩ := hf
  exact Name.lookupToken_of_isToken (h e (mem_of_getElem? hk))

/-- The lines so far are read back, by any decoder that agrees on what they
refer to, as these fields. -/
def LinesInv (ctx : FlattenCtx) (q : Encoder) (fs : List (Bytes × Bytes)) :
    Prop :=
  ∀ t (b : Nat), (ctx.largestRef ≠ 0 → (b : Int) = ctx.baseIndex) →
    (∀ i : Nat, (i : Int) ≤ ctx.largestRef → AgreeAt t q.table i) →
    ∃ outs, Reads (fun (_ : Unit) e out _ => Line t b e out) ()
      ctx.headersBuf outs () ∧
      List.Forall₂ Decoded.Is outs fs

theorem Line.ne_nil {b : Nat} {e : Bytes} {out : Decoded}
    (h : Line t b e out) : e ≠ [] := by
  rintro rfl
  have hnil := h 0 []
  simp [decodeHeader, resolveDynamicPostbase, decodeInt, Hpack.decodeInt, bind,
    Except.bind] at hnil

/-- One more line. -/
theorem LinesInv.snoc {fs : List (Bytes × Bytes)}
    (h : LinesInv ctx q fs) (hbuf : ctx'.headersBuf = ctx.headersBuf ++ line)
    (hbase : ctx'.baseIndex = ctx.baseIndex)
    (href : ctx.largestRef ≠ 0 → ctx'.largestRef ≠ 0)
    (hagree : ∀ t, (∀ i : Nat, (i : Int) ≤ ctx'.largestRef →
      AgreeAt t q'.table i) →
      ∀ i : Nat, (i : Int) ≤ ctx.largestRef → AgreeAt t q.table i)
    (hline : ∀ t (b : Nat), (ctx'.largestRef ≠ 0 → (b : Int) = ctx.baseIndex) →
      (∀ i : Nat, (i : Int) ≤ ctx'.largestRef → AgreeAt t q'.table i) →
      ∃ out, Line t b line out ∧ out.Is f) :
    LinesInv ctx' q' (fs ++ [f]) := by
  intro t b hb ht
  rw [hbase] at hb
  obtain ⟨outs, hreads, hfs⟩ := h t b (fun hne => hb (href hne)) (hagree t ht)
  obtain ⟨out, hout, hf⟩ := hline t b hb ht
  rw [hbuf]
  exact ⟨outs ++ [out], hreads.snoc hout.ne_nil hout,
    rel_append hfs (.cons hf .nil)⟩

section Call

variable {q₀ : Encoder} {fs : List (Bytes × Bytes)}

section

variable (h : CtxInv q₀ ctx q) (hl : LinesInv ctx q fs)
  (hbase : ctx.baseIndex ≤ int64Max)
  (hpos : 1 ≤ i) (hlt : i < q.table.totalInserts)
  (hres : q.table.resolveDynamicAbs i.toNat = some e)
include h hl hbase hpos hlt hres

/-- A line that refers to an entry found in the table. -/
theorem LinesInv.refers (hbuf : ctx'.headersBuf = ctx.headersBuf ++ line)
    (hbase' : ctx'.baseIndex = ctx.baseIndex)
    (href : ctx'.largestRef = if i > ctx.largestRef then i else ctx.largestRef)
    (hline : ∀ t (b k : Nat) e', t.resolveDynamicAbs k = some e' →
      (b : Int) = ctx.baseIndex → (k : Int) = i → 1 ≤ k → k ≤ int64Max →
      b ≤ int64Max → e'.name.bytes = e.name.bytes → e'.value = e.value →
      EntrySound e' → ∃ out, Line t b line out ∧ out.Is f) :
    LinesInv ctx' q (fs ++ [f]) := by
  have htotal := h.table.total_lt
  have hge : i ≤ ctx'.largestRef ∧ ctx.largestRef ≤ ctx'.largestRef := by
    rw [href]
    split <;> omega
  refine hl.snoc hbuf hbase' (by omega) (fun t ht k hk => ht k (by omega)) ?_
  intro t b hb ht
  have hb' := hb (by omega)
  obtain ⟨k, rfl⟩ := Int.eq_ofNat_of_zero_le (show 0 ≤ i by omega)
  have hk64 : k ≤ int64Max := by
    simp only [int64Max]
    omega
  obtain ⟨e', he', hname, hvalue, hsound⟩ := ht k hge.1 e hres
  exact hline t b k e' he' hb' rfl (by omega) hk64 (by omega)
    hname hvalue hsound

theorem LinesInv.indexed (hname : e.name.bytes = name)
    (htoken : lookupToken name ≠ none) :
    LinesInv (flattenDynamicIndexed ctx i) q (fs ++ [(name, e.value)]) := by
  refine hl.refers h hbase hpos hlt hres rfl rfl rfl ?_
  intro t b k e' he' hb hk hpos hk64 hb64 hname' hvalue hsound
  refine ⟨.ofSoft e'.name e'.value e'.softErrors, ?_, ?_⟩
  · rw [← hb, ← hk]
    exact line_dynamicIndexed he' hpos hk64 hb64
  · rw [← hvalue]
    have hname := hname'.trans hname
    refine ⟨hname, rfl, ?_⟩
    simp [Decoded.ofSoft, hsound.invalidName hname htoken, hsound.value,
      valueError]

end

/-- A line that refers to no entry of the dynamic table. -/
theorem LinesInv.append (hl : LinesInv ctx q fs)
    (hline : ∀ t b, ∃ out, Line t b line out ∧ out.Is f) :
    LinesInv { ctx with headersBuf := ctx.headersBuf ++ line } q (fs ++ [f]) :=
  hl.snoc rfl rfl id (fun _ ht => ht) (fun t b _ _ => hline t b)

section

variable (h : CtxInv q₀ ctx q) (hl : LinesInv ctx q fs)
  (ht : TokenTable q.table) (hbase : ctx.baseIndex ≤ int64Max)
include h hl ht hbase

theorem LinesInv.literal {staticIndex : Int} {isExact likely dc : Bool}
    {name : Name}
    {value : Bytes}
    (hwf : (Call.header staticIndex isExact likely name value dc).WellFormed)
    (hok : FieldOk (name.bytes, value))
    (hi : 0 ≤ i → ∃ e, FoundAt q.table name i e) :
    LinesInv (flattenLiteral ctx staticIndex i name value dc) q
      (fs ++ [(name.bytes, value)]) := by
  have hn : name.bytes.length ≤ int64Max := by
    have := hok.nameLength
    simp only [int64Max] at this ⊢
    omega
  have hv : value.length ≤ int64Max := by
    have := hok.valueLength
    simp only [int64Max] at this ⊢
    omega
  unfold flattenLiteral
  split
  · rename_i hs
    obtain ⟨t, v₀, rfl, hres, -⟩ := hwf.2 hs
    obtain ⟨k, rfl⟩ := Int.eq_ofNat_of_zero_le hs
    rw [flattenStaticNameref, append_assoc]
    exact hl.append fun t b =>
      ⟨_, line_staticNameref hres hv dc, Decoded.is_ofSoft_value⟩
  · split
    · rename_i hi'
      obtain ⟨e, he⟩ := hi hi'
      have hlt := he.lt
      rw [h.table.base] at hlt
      refine hl.refers h hbase (by omega) hlt.2 he.resolve (append_assoc ..)
        rfl rfl ?_
      intro t b k e' he' hb hk hpos hk64 hb64 hname' _ hsound
      have hname := hname'.trans he.bytes
      rw [← hb, ← hk]
      refine ⟨_, line_dynamicNameref he' hpos hk64 hb64 hv dc, ?_⟩
      rw [hsound.invalidName hname (lookupToken_of_foundAt ht he), ← hname]
      exact Decoded.is_ofSoft_value
    · rw [flattenWithoutNameref, append_assoc]
      refine hl.append fun t b =>
        ⟨_, line_withoutNameref hok.name hn hv dc, ?_⟩
      have his := @Decoded.is_ofSoft_value (.intern name.bytes) value
      rwa [Name.bytes_intern] at his

/-- A call adds a line that is read back. -/
theorem LinesInv.call {c : Call} (hwf : c.WellFormed) (hok : FieldOk c.field)
    (hrun : c.run ctx = .ok ctx') (h' : CtxInv q₀ ctx' q') :
    LinesInv ctx' q' (fs ++ [c.field]) := by
  have hsame : ctx'.qpack = ctx.qpack → q' = q := by
    intro hq
    rwa [h.qpack, h'.qpack, some.injEq] at hq
  cases c with
  | staticIndexed index =>
    cases hrun
    obtain rfl := hsame rfl
    obtain ⟨⟨t, v⟩, hres⟩ := isSome_iff_exists.mp hwf
    simp only [Call.field, hres]
    exact hl.append fun _ _ =>
      ⟨_, line_staticIndexed hres, Decoded.is_ofSoft_static hres⟩
  | header staticIndex isExact likely name value dc =>
    cases doFlattenHeader_step h.qpack hrun with
    | static hs hx =>
      obtain rfl := hsame rfl
      obtain ⟨t, v, rfl, hres, hv⟩ := hwf.2 hs
      obtain rfl := hv hx
      obtain ⟨k, rfl⟩ := Int.eq_ofNat_of_zero_le hs
      rw [Int.toNat_natCast] at hres
      exact hl.append fun _ _ =>
        ⟨_, line_staticIndexed hres, Decoded.is_ofSoft_static hres⟩
    | indexed hi hle he hv =>
      obtain rfl := hsame rfl
      have hlt := he.lt
      rw [h.table.base] at hlt
      subst hv
      exact hl.indexed h hbase (by omega) hlt.2 he.resolve he.bytes
        (lookupToken_of_foundAt ht he)
    | literal hlook =>
      obtain rfl := hsame (flattenLiteral_qpack ..)
      refine hl.literal h ht hbase hwf hok fun hi => ?_
      obtain ⟨-, e, he, -⟩ := lookupDynamic_found hlook hi
      exact ⟨e, he⟩
    | @insert i ex buf hbuf hlook hx hins =>
      obtain rfl := some.inj h'.qpack
      have hroom := room_of_insertsEntry hins
      have htotal := HeaderTable.insert_totalInserts hroom
      have hlt := h.ref_lt
      have hpos := h.table.total_pos
      have hadded : LinesInv (addedCtx ctx q buf staticIndex i name value)
          { q with table := q.table.insert ⟨name, value, .none⟩ } fs := by
        intro t b hb hagree
        refine hl t b hb fun k hk x hx => hagree k hk x ?_
        rwa [HeaderTable.resolveDynamicAbs_insert hroom (by omega)]
      have hlast := HeaderTable.resolveDynamicAbs_insert_last hroom
      have htoken := Name.lookupToken_of_isToken
        (hwf.1 (likely_of_insertsEntry hins))
      exact hadded.indexed (h.added hbuf hins) hbase (by
        rw [htotal]; omega) (Int.sub_one_lt_of_le le_rfl) (by
        rw [htotal]
        simpa using hlast) rfl htoken

/-- The lines of a whole section. -/
theorem LinesInv.calls {calls : List Call}
    (hcalls : ∀ c ∈ calls, c.WellFormed ∧ FieldOk c.field)
    (hrun : calls.foldlM Call.run ctx = .ok ctx') :
    ∃ q', CtxInv q₀ ctx' q' ∧ SameSection ctx ctx' ∧
      LinesInv ctx' q' (fs ++ calls.map Call.field) := by
  induction calls generalizing ctx q fs with
  | nil =>
    cases hrun
    exact ⟨q, h, ⟨rfl, rfl, rfl⟩, by simpa using hl⟩
  | cons c calls ih =>
    rw [foldlM_except_cons] at hrun
    cases hc : c.run ctx with
    | error e => simp [hc] at hrun
    | ok ctx₁ =>
      rw [hc] at hrun
      obtain ⟨hwf, hok⟩ := hcalls c mem_cons_self
      obtain ⟨q₁, h₁⟩ := h.call hc
      have hsame := sameSection_call h.qpack hc
      obtain ⟨q', h', hsame', hl'⟩ := ih h₁ (hl.call h ht hbase hwf hok hc h₁)
        (TokenTable.call h ht hwf hc h₁) (hsame.baseIndex ▸ hbase)
        (fun c hc => hcalls c (mem_cons_of_mem _ hc)) hrun
      refine ⟨q', h', ⟨hsame'.streamId.trans hsame.streamId,
        hsame'.baseIndex.trans hsame.baseIndex,
        hsame'.isNone.trans hsame.isNone⟩, ?_⟩
      simpa using hl'

end

end Call

-- ==== prefix

/-- The base index, relative to the largest reference, in either direction. -/
theorem decode_base {l b : Nat} (hl : l < 2 ^ 32) (hb : b < 2 ^ 32)
    (lines : Bytes) :
    ∃ c tl delta, (if (l : Int) ≤ b then flattenInt 0 (b - l) 7
        else flattenInt 0x80 (l - b - 1) 7) = c :: tl ∧
      decodeInt (c :: (tl ++ lines)) 7 = .ok (delta, lines) ∧
      delta ≤ quicintMax ∧
      (if c &&& 0x80 = 0 then (l : Int) + delta else l - delta - 1) = b := by
  by_cases hle : l ≤ b
  · rw [if_pos (by omega), show ((b : Int) - l) = (b - l : Nat) by omega]
    obtain ⟨c, tl, hc, hlo, hhi, hdec⟩ :=
      @flattenInt_spec 0 7 (b - l) (by decide)
        rfl (by simp only [int64Max]; omega)
    have hbit : c &&& 0x80 = 0 := by
      rw [and_128_eq_zero_iff]
      simpa using hhi
    refine ⟨c, tl, b - l, hc, hdec lines, ?_, ?_⟩
    · simp only [quicintMax]
      omega
    · rw [if_pos hbit]
      omega
  · rw [if_neg (by omega),
      show ((l : Int) - b - 1) = (l - b - 1 : Nat) by omega]
    obtain ⟨c, tl, hc, hlo, hhi, hdec⟩ :=
      @flattenInt_spec 0x80 7 (l - b - 1) (by decide)
        rfl (by simp only [int64Max]; omega)
    have h128 : (0x80 : UInt8).toNat = 128 := rfl
    have hbit : ¬ c &&& 0x80 = 0 := by
      rw [and_128_eq_zero_iff]
      omega
    refine ⟨c, tl, l - b - 1, hc, hdec lines, ?_, ?_⟩
    · simp only [quicintMax]
      omega
    · rw [if_neg hbit]
      omega

/-- The prefix of a section whose largest reference is `l`. -/
theorem parseDecodeContext_dynamic (h : DecoderInv d) {b : Nat} (hl : 1 ≤ l)
    (hle : l ≤ d.totalInserts) (hmax : d.totalInserts ≤ d.maxEntries)
    (hb : b < 2 ^ 32) (streamId : Int) (lines : Bytes) :
    parseDecodeContext d streamId (sectionPrefix l b ++ lines) =
      (d, .ok (⟨l, b⟩, lines)) := by
  have hsmall : d.maxEntries < 2 ^ 32 := by
    have := h.small
    rw [h.maxEntries]
    omega
  obtain ⟨c, tl, delta, hbase, hdec, hdelta, hval⟩ :=
    @decode_base l b (by omega) hb lines
  have hric := @decodeInt_sectionPrefix l (by omega) b lines
  rw [hbase, if_neg (by omega), cons_append] at hric
  have hcount := h.count
  have hinsert : decodeReqInsertCount d (l + 1) = some l := by
    rw [decodeReqInsertCount_eq_rfc hsmall (by omega) (by omega),
      rfcReqInsertCount_eq_some_iff (by omega)]
    exact ⟨by omega, by omega, by omega, Nat.mod_eq_of_lt (by omega)⟩
  unfold parseDecodeContext
  simp only [hric, hinsert, hdec, hval]
  rw [if_neg (by omega), if_neg (by omega), Int.toNat_natCast]

-- ==== round trip

theorem decodeHeaders_of_reads {dctx : DecodeCtx} {u u' : Unit} {bs : Bytes}
    {outs : List Decoded}
    (h : Reads (fun _ e out _ => Line t dctx.baseIndex e out) u bs outs u')
    {n : Nat} (hn : bs.length ≤ n) :
    decodeHeaders t dctx n bs = .ok outs := by
  induction h generalizing n with
  | nil => cases n <;> rfl
  | @cons _ _ _ e es out outs hne hline _ ih =>
    have hlen : 0 < e.length := length_pos_iff.mpr hne
    rw [length_append] at hn
    obtain ⟨n, rfl⟩ : ∃ m, n = m + 1 := ⟨n - 1, by omega⟩
    rw [decodeHeaders, if_neg (by simp [hne]), hline dctx.reqInsertCount es]
    simp only [ih (show es.length ≤ n by omega)]

/-- The field at an absolute index. -/
def HeaderTable.fieldAt (t : HeaderTable) (i : Nat) : Option (Bytes × Bytes) :=
  (t.resolveDynamicAbs i).map fun e => (e.name.bytes, e.value)

theorem agreeAt_of_fieldAt (h : DecoderInv d) {i : Nat}
    (heq : d.table.fieldAt i = t.fieldAt i) : AgreeAt d.table t i := by
  intro e he
  rw [HeaderTable.fieldAt, HeaderTable.fieldAt, he, map_some,
    map_eq_some_iff] at heq
  obtain ⟨e', he', hfield⟩ := heq
  obtain ⟨hname, hvalue⟩ := Prod.mk.inj hfield
  refine ⟨e', he', hname, hvalue, h.sound e' ?_⟩
  unfold HeaderTable.resolveDynamicAbs at he'
  split at he'
  · cases he'
  · exact mem_of_getElem? he'

/-- A decoder that has the encoder's entries from the first one on has evicted
nothing: it has seen this insert, and no more than it has entries for. -/
theorem inserts_of_fieldAt (h : DecoderInv d) (ht : TableInv t) (hl : 1 ≤ l)
    (hlt : l < t.totalInserts)
    (hagree : ∀ i ≤ l, d.table.fieldAt i = t.fieldAt i) :
    l ≤ d.totalInserts ∧ d.totalInserts ≤ d.maxEntries := by
  have hbase := ht.base
  have hresolve : ∀ i, 1 ≤ i → i ≤ l → d.table.baseOffset ≤ i ∧
      i < d.table.totalInserts := by
    intro i hi hil
    unfold HeaderTable.totalInserts at hlt
    have hlen : i - t.baseOffset < t.entries.length := by omega
    have he : t.resolveDynamicAbs i = some t.entries[i - t.baseOffset] := by
      rw [HeaderTable.resolveDynamicAbs, if_neg (by omega)]
      exact getElem?_eq_getElem _
    obtain ⟨e', he', -⟩ := agreeAt_of_fieldAt h (hagree i hil) _ he
    unfold HeaderTable.resolveDynamicAbs at he'
    split at he'
    · cases he'
    · have := (List.getElem?_eq_some_iff.mp he').1
      unfold HeaderTable.totalInserts
      omega
  have hfirst := hresolve 1 le_rfl hl
  have hlast := hresolve l hl le_rfl
  have hcount := h.count
  have hsize := entriesSize_ge d.table.entries
  have hroom := h.room
  have hmax := h.maxSize
  have hdb := h.base
  rw [← d.table.numBytes_eq] at hsize
  rw [h.maxEntries]
  unfold HeaderTable.totalInserts at hcount hlast
  omega

/-- The encoder can serialise a section: its search starts inside of the
table, and it knows of no insert it has not made. -/
def KnownInRange (q : Encoder) (supplied : Bool) : Prop :=
  SearchInRange q supplied ∧ q.largestKnownReceived.toInt <
    q.table.totalInserts

instance (q : Encoder) (supplied : Bool) :
    Decidable (KnownInRange q supplied) := by
  unfold KnownInRange
  infer_instance

/-- The largest reference and the base index of a section, from what the
encoder `q` that began it has become. -/
def SectionCtx (q q' : Encoder) (streamId : Int64) (dctx : DecodeCtx) : Prop :=
  (dctx = ⟨0, 0⟩ ∧ q'.inflight = q.inflight) ∨ (1 ≤ dctx.reqInsertCount ∧
      dctx.baseIndex + 1 = q.table.totalInserts ∧
      ∃ isBlocking, q'.inflight = q.inflight ++
        [⟨streamId, Int64.ofNat dctx.reqInsertCount, isBlocking⟩])

/-- The prefix says what the section refers to. -/
theorem sectionCtx_sent {q₀ : Encoder}
    (h : CtxInv q₀ ctx q) (hbase : ctx.baseIndex = q₀.table.totalInserts - 1)
    (hpos : 0 < q₀.table.totalInserts)
    (hknown : q₀.largestKnownReceived.toInt < q₀.table.totalInserts) :
    ∃ dctx, SectionCtx q₀ (q.sent ctx.streamId ctx.largestRef)
      ctx.streamId dctx ∧ sectionOf q ctx =
        sectionPrefix dctx.reqInsertCount dctx.baseIndex ++ ctx.headersBuf ∧
      dctx.reqInsertCount < q.table.totalInserts ∧
      ctx.largestRef ≤ dctx.reqInsertCount ∧
      (ctx.largestRef ≠ 0 → (dctx.baseIndex : Int) = ctx.baseIndex) := by
  have hnonneg := h.ref_nonneg
  have hlt := h.ref_lt
  have hgrows := h.grows
  have hinflight : q.inflight = q₀.inflight := by rw [h.frame]
  have hlkr : q.largestKnownReceived = q₀.largestKnownReceived := by
    rw [h.frame]
  by_cases hz : ctx.largestRef = 0
  · refine ⟨⟨0, 0⟩, .inl ⟨rfl, ?_⟩, ?_, ?_, ?_, ?_⟩
    · rw [Encoder.sent, if_pos hz, hinflight]
    · rw [sectionOf, if_pos hz]
      rfl
    · show 0 < q.table.totalInserts
      omega
    · exact hz.le
    · exact fun hne => absurd hz hne
  · obtain ⟨l, hl⟩ := Int.eq_ofNat_of_zero_le
      (show 0 ≤ sentRef q ctx.largestRef by unfold sentRef; split <;> omega)
    obtain ⟨b, hb⟩ := Int.eq_ofNat_of_zero_le (show 0 ≤ ctx.baseIndex by omega)
    have href : ctx.largestRef ≤ l ∧ l < q.table.totalInserts := by
      rw [sentRef, hlkr] at hl
      split at hl <;> omega
    have hsent : ∃ isBlocking, (q.sent ctx.streamId ctx.largestRef).inflight =
        q₀.inflight ++
          [⟨ctx.streamId, Int64.ofNat l, isBlocking⟩] := by
      rw [Encoder.sent, if_neg hz, hl, hinflight]
      exact ⟨_, rfl⟩
    refine ⟨⟨l, b⟩, .inr ⟨?_, ?_, hsent⟩, ?_, ?_, ?_, ?_⟩
    · show 1 ≤ l
      omega
    · show b + 1 = q₀.table.totalInserts
      omega
    · rw [sectionOf, if_neg hz, hl, hb]
    · exact href.2
    · exact href.1
    · exact fun _ => hb.symm

/-- A section is read back by every decoder that has the encoder's entries up
to the largest reference, as the fields of the message in order. -/
theorem field_section_round_trip {size : UInt32} {maxBlocked : UInt16}
    {events : List EncoderEvent} {s : EncoderState}
    (hrun : events.foldlM EncoderState.step (.create size maxBlocked) = .ok s)
    {supplied : Bool} (hrange : KnownInRange s.encoder supplied)
    (streamId : Int64) (m : Message) (hm : ∀ f ∈ m.fields, FieldOk f) :
    ∃ r q dctx lines,
      m.flatten (some s.encoder) streamId (s.buf supplied) = .ok r ∧
      r.qpack = some q ∧ SectionCtx s.encoder q streamId dctx ∧
      ∀ (size' : UInt32) (maxBlocked' : UInt16) (devents : List DecoderEvent)
        (ds : DecoderState) (sid : Int),
        devents.foldlM DecoderState.step (.create size' maxBlocked') = .ok ds →
        (∀ i ≤ dctx.reqInsertCount, ds.decoder.table.fieldAt i =
          q.table.fieldAt i) →
        parseDecodeContext ds.decoder sid r.fieldSection =
          (ds.decoder, .ok (dctx, lines)) ∧
        ∃ outs, decodeHeaders ds.decoder.table dctx lines.length lines =
            .ok outs ∧ List.Forall₂ Decoded.Is outs m.fields := by
  have hinv := EncoderInv.run hrun
  have hpos := hinv.table.total_pos
  have hsmall := hinv.table.total_lt
  obtain ⟨ctx, q, hcalls, hctx, hstart, -⟩ :=
    calls_ok hinv.table (startsInRange_prepare hrange.1 streamId) m.calls
  have hbase₀ : (prepareFlatten (some s.encoder) streamId
      (s.buf supplied)).baseIndex = s.encoder.table.totalInserts - 1 := rfl
  -- the lines
  have hnil : LinesInv (prepareFlatten (some s.encoder) streamId
      (s.buf supplied)) s.encoder [] :=
    fun _ _ _ _ => ⟨[], .nil (), .nil⟩
  have hok : ∀ c ∈ m.calls, c.WellFormed ∧ FieldOk c.field := by
    intro c hc
    refine ⟨wellFormed_message m c hc, hm _ ?_⟩
    rw [← fields_message]
    exact mem_map_of_mem hc
  obtain ⟨q', hctx', hsame, hlines⟩ :=
    hnil.calls (.prepare hinv.table streamId _) hinv.tokens
    (by rw [hbase₀]; simp only [int64Max]; omega) hok hcalls
  obtain rfl : q = q' := some.inj (hctx.qpack.symm.trans hctx'.qpack)
  rw [fields_message] at hlines
  -- the prefix
  obtain ⟨dctx, hsec, hbytes, hlt, hle, hb⟩ := sectionCtx_sent hctx
    (hsame.baseIndex.trans hbase₀) hpos hrange.2
  refine ⟨_, _, dctx, ctx.headersBuf,
    (m.flatten_eq ..).trans (flatten_eq hcalls hctx hstart), rfl,
    hsame.streamId ▸ hsec, ?_⟩
  intro size' maxBlocked' devents ds sid hds hagree
  have hd := DecoderInv.run hds
  rw [sent_table] at hagree
  constructor
  · show parseDecodeContext ds.decoder sid (sectionOf q ctx) = _
    rw [hbytes]
    rcases hsec with ⟨rfl, -⟩ | ⟨hl, hb', -⟩
    · have hp : sectionPrefix 0 0 = [0, 0] := rfl
      have hint : decodeInt (0 :: 0 :: ctx.headersBuf) 8 =
          .ok (0, 0 :: ctx.headersBuf) := rfl
      have hint' : decodeInt (0 :: ctx.headersBuf) 7 =
          .ok (0, ctx.headersBuf) := rfl
      have hcount := hd.count
      simp [hp, parseDecodeContext, hint, hint', decodeReqInsertCount]
      omega
    · obtain ⟨hseen, hmax⟩ := inserts_of_fieldAt hd hctx.table hl hlt hagree
      exact parseDecodeContext_dynamic hd hl hseen hmax (by omega) sid _
  · obtain ⟨outs, hreads, hfields⟩ := hlines ds.decoder.table dctx.baseIndex hb
      fun i hi => agreeAt_of_fieldAt hd (hagree i (by omega))
    exact ⟨outs, decodeHeaders_of_reads hreads le_rfl, hfields⟩

instance (name : Bytes) : Decidable (NameValid name) := by
  unfold NameValid
  infer_instance

instance (f : Bytes × Bytes) : Decidable (FieldOk f) :=
  decidable_of_iff (NameValid f.1 ∧ f.1.length < 2 ^ 31 ∧ f.2.length < 2 ^ 31)
    ⟨fun h => ⟨h.1, h.2.1, h.2.2⟩, fun h =>
      ⟨h.name, h.nameLength, h.valueLength⟩⟩

/-- A response with a status code, a length and fields of every kind. -/
def sampleResponse : Message :=
  .response
    { status := 404
      headers := [⟨.intern (ascii "vary"), ascii "accept-encoding", false⟩,
        ⟨.intern (ascii "alt-svc"), ascii "h3=:443", false⟩,
        ⟨.buf (ascii "x-id"), ascii "7", true⟩]
      serverName := ascii "h2o"
      contentLength := some 12
      datagramFlowId := none }

theorem field_section_round_trip_sampleResponse :
    ∃ r q dctx lines,
      sampleResponse.flatten (some (.create 4096 100)) 0 (some []) = .ok r ∧
      r.qpack = some q ∧ SectionCtx (.create 4096 100) q 0 dctx ∧
      ∀ (size' : UInt32) (maxBlocked' : UInt16) (devents : List DecoderEvent)
        (ds : DecoderState) (sid : Int),
        devents.foldlM DecoderState.step (.create size' maxBlocked') = .ok ds →
        (∀ i ≤ dctx.reqInsertCount, ds.decoder.table.fieldAt i =
          q.table.fieldAt i) →
        parseDecodeContext ds.decoder sid r.fieldSection =
          (ds.decoder, .ok (dctx, lines)) ∧
        ∃ outs, decodeHeaders ds.decoder.table dctx lines.length lines =
            .ok outs ∧ List.Forall₂ Decoded.Is outs sampleResponse.fields :=
  @field_section_round_trip 4096 100 [] (.create 4096 100) rfl true
    (by decide +kernel) 0 sampleResponse (by decide +kernel)

/-- The fault a run ends with. -/
def faultOf {α : Type} : Except Fault α → Option Fault
  | .ok _ => none
  | .error e => some e

/-- The only section that may block is in flight, so the next one searches the
acknowledged entries, from an index far outside of the table. -/
theorem flatten_after_wrappingEvents_out_of_bounds :
    faultOf (wrappingEvents.foldlM EncoderState.step (.create 4096 1)) = none ∧
    faultOf ((wrappingEvents ++ [fieldEvent 4 "origin" "https://a"]).foldlM
      EncoderState.step (.create 4096 1)) = some .outOfBounds := by
  decide +kernel

end H2o.Qpack
