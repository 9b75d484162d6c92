/-
What `do_flatten_header` can do, said once.

`HeaderStep` lists the outcomes of a call with an encoder: a static reference,
a dynamic reference, an entry that is added, or a literal. The index a lookup
returns is that of an entry with this name (`lookupDynamic_found`), and of the
encoder a call only changes the table (`flatten_frame`). The invariants of the
field section, of the encoder stream and of the in-flight list follow from
these.
-/
import H2o.Qpack.Session

namespace H2o.Qpack

open Lib Except List

variable {q q₀ : Encoder} {ctx ctx' : FlattenCtx} {name : Name}
  {i staticIndex : Int} {value : Bytes} {t : HeaderTable}
  {ackedOnly likely : Bool} {e : Entry}

-- ==== lookups

/-- The entry at an index a lookup returns. -/
def FoundAt (t : HeaderTable) (name : Name) (i : Int) (e : Entry) : Prop :=
  ∃ k, i = (t.baseOffset + k : Nat) ∧ t.entries[k]? = some e ∧
    nameMatches name e.name = true

/-- What is found is in the table. -/
theorem FoundAt.lt (h : FoundAt t name i e) :
    t.baseOffset ≤ i ∧ i < t.totalInserts := by
  obtain ⟨k, rfl, hk, -⟩ := h
  have := (List.getElem?_eq_some_iff.mp hk).1
  unfold HeaderTable.totalInserts
  omega

theorem FoundAt.resolve (h : FoundAt t name i e) :
    t.resolveDynamicAbs i.toNat = some e := by
  obtain ⟨k, rfl, hk, -⟩ := h
  rw [Int.toNat_natCast, HeaderTable.resolveDynamicAbs, if_neg (by omega),
    Nat.add_sub_cancel_left, hk]

theorem FoundAt.bytes (h : FoundAt t name i e) :
    e.name.bytes = name.bytes := by
  obtain ⟨-, -, -, hm⟩ := h
  cases name with
  | token t =>
    have : e.name = .token t := by simpa [nameMatches] using hm
    rw [this]
  | buf b => simpa [nameMatches, Name.bytes] using hm

/-- What the loop returns: an exact match below `n`, or the best so far. -/
theorem lookupLoop_spec {n : Nat} (hn : n ≤ t.entries.length) (found : Int) :
    ∀ i ex, lookupLoop t name value n found = (i, ex) →
      (ex = true ∧ i < (t.baseOffset + n : Nat) ∧
        ∃ e, FoundAt t name i e ∧ e.value = value) ∨
      (ex = false ∧ (i = found ∨
        (i < (t.baseOffset + n : Nat) ∧ ∃ e, FoundAt t name i e))) := by
  induction n generalizing found with
  | zero =>
    intro i ex h
    cases h
    exact .inr ⟨rfl, .inl rfl⟩
  | succ n ih =>
    intro i ex h
    have hget : t.entries[n]? =
        some (t.entries.getD n ⟨.buf [], [], .none⟩) := by
      rw [getElem?_eq_getElem (by omega), getD_eq_getElem _ _ (by omega)]
    rw [lookupLoop] at h
    generalize t.entries.getD n ⟨.buf [], [], .none⟩ = e at h hget
    by_cases hname : nameMatches name e.name = true
    · have hfound : FoundAt t name (t.baseOffset + n) e :=
        ⟨n, by simp, hget, hname⟩
      rw [if_neg (by simp [hname])] at h
      by_cases hv : value = e.value
      · rw [if_pos hv] at h
        cases h
        exact .inl ⟨rfl, by omega, e, hfound, hv.symm⟩
      rw [if_neg hv] at h
      rcases ih (by omega) _ i ex h with ⟨hx, hi, he⟩ | ⟨hx, hi⟩
      · exact .inl ⟨hx, by omega, he⟩
      refine .inr ⟨hx, ?_⟩
      rcases hi with hi | ⟨hi, he⟩
      · by_cases hf : found = -1
        · rw [if_pos hf] at hi
          exact .inr ⟨by omega, e, hi ▸ hfound⟩
        · rw [if_neg hf] at hi
          exact .inl hi
      · exact .inr ⟨by omega, he⟩
    · rw [if_pos (by simp [hname])] at h
      rcases ih (by omega) _ i ex h with ⟨hx, hi, he⟩ | ⟨hx, hi⟩
      · exact .inl ⟨hx, by omega, he⟩
      · refine .inr ⟨hx, hi.imp id fun hi => ⟨by omega, hi.2⟩⟩

/-- The index returned is that of an entry with this name, no newer than where
the search starts, and of one with this value if the match is exact. -/
theorem lookupDynamic_found {ex : Bool}
    (h : lookupDynamic q name value ackedOnly = .ok (i, ex)) (hi : 0 ≤ i) :
    i ≤ lookupStart q ackedOnly ∧ ∃ e, FoundAt q.table name i e ∧
      (ex = true → e.value = value) := by
  unfold lookupDynamic at h
  by_cases hs : lookupStart q ackedOnly < q.table.totalInserts
  · simp only [hs, if_true, ok.injEq] at h
    have hn : lookupStart q ackedOnly + 1 - q.table.baseOffset ≤
        q.table.entries.length := by
      unfold HeaderTable.totalInserts at hs
      omega
    rcases lookupLoop_spec hn (-1) i ex h with ⟨-, hlt, e, he, hv⟩ | ⟨hx, hor⟩
    · exact ⟨by have := he.lt; omega, e, he, fun _ => hv⟩
    · rcases hor with rfl | ⟨hlt, e, he⟩
      · omega
      · exact ⟨by have := he.lt; omega, e, he, by simp [hx]⟩
  · simp [hs] at h

-- ==== table

/-- The encoder's table: nothing has been evicted and nothing is in excess. -/
structure TableInv (t : HeaderTable) : Prop where
  base : t.baseOffset = 1
  room : t.numBytes ≤ t.maxSize
  small : t.maxSize < 2 ^ 32

theorem entriesSize_ge (es : List Entry) :
    32 * es.length ≤ entriesSize es := by
  induction es with
  | nil => simp
  | cons e es ih =>
    simp only [entriesSize, map_cons, sum_cons, length_cons,
      Entry.size, headerEntrySizeOffset] at ih ⊢
    omega

/-- The table is small, so indices do not wrap. -/
theorem TableInv.total_lt (h : TableInv t) : t.totalInserts < 2 ^ 32 := by
  have hsize := entriesSize_ge t.entries
  have := h.base
  have := h.room
  have := h.small
  rw [← t.numBytes_eq] at hsize
  unfold HeaderTable.totalInserts
  omega

theorem TableInv.total_pos (h : TableInv t) : 0 < t.totalInserts := by
  have := h.base
  unfold HeaderTable.totalInserts
  omega

section

variable {dynamicIndex : Int}
  (h : insertsEntry q staticIndex dynamicIndex likely name value = true)
include h

theorem likely_of_insertsEntry : likely = true := by
  rw [insertsEntry, Bool.and_eq_true, Bool.and_eq_true] at h
  exact h.1.1

/-- An entry is inserted only if nothing is evicted. -/
theorem room_of_insertsEntry :
    q.table.numBytes + (Entry.mk name value .none).size ≤ q.table.maxSize := by
  rw [insertsEntry, Bool.and_eq_true] at h
  have hroom := of_decide_eq_true h.2
  simp only [Entry.size, headerEntrySizeOffset] at hroom ⊢
  omega

end

theorem TableInv.insert {t : HeaderTable} (h : TableInv t) {e : Entry}
    (hroom : t.numBytes + e.size ≤ t.maxSize) : TableInv (t.insert e) where
  base := by rw [HeaderTable.insert_baseOffset hroom, h.base]
  room := by
    rw [HeaderTable.insert_numBytes hroom, HeaderTable.insert_maxSize]
    exact hroom
  small := by rw [HeaderTable.insert_maxSize]; exact h.small

-- ==== outcomes of one header

section

variable (ctx : FlattenCtx) (staticIndex dynamicIndex : Int) (name : Name)
  (value : Bytes) (dc : Bool)

/-- A literal touches the section only. -/
theorem flattenLiteral_frame :
    ∃ ref buf, flattenLiteral ctx staticIndex dynamicIndex name value dc =
      { ctx with largestRef := ref, headersBuf := buf } := by
  unfold flattenLiteral
  split
  · exact ⟨_, _, rfl⟩
  · split <;> exact ⟨_, _, rfl⟩

theorem flattenLiteral_qpack :
    (flattenLiteral ctx staticIndex dynamicIndex name value dc).qpack =
      ctx.qpack := by
  obtain ⟨ref, buf, h⟩ :=
    flattenLiteral_frame ctx staticIndex dynamicIndex name value dc
  rw [h]

theorem flattenLiteral_encoderBuf :
    (flattenLiteral ctx staticIndex dynamicIndex name value dc).encoderBuf =
      ctx.encoderBuf := by
  obtain ⟨ref, buf, h⟩ :=
    flattenLiteral_frame ctx staticIndex dynamicIndex name value dc
  rw [h]

end

/-- The context with a field added to the table and to the encoder stream. -/
def addedCtx (ctx : FlattenCtx) (q : Encoder) (buf : Bytes)
    (staticIndex dynamicIndex : Int) (name : Name) (value : Bytes) :
    FlattenCtx :=
  { ctx with
    qpack := some { q with table := q.table.insert ⟨name, value, .none⟩ }
    encoderBuf := some (emitInsert buf staticIndex dynamicIndex name value) }

/-- The same, after the reference to the entry. -/
def insertedCtx (ctx : FlattenCtx) (q : Encoder) (buf : Bytes)
    (staticIndex dynamicIndex : Int) (name : Name) (value : Bytes) :
    FlattenCtx :=
  flattenDynamicIndexed
    (addedCtx ctx q buf staticIndex dynamicIndex name value)
    ((q.table.insert ⟨name, value, .none⟩).totalInserts - 1)

/-- What `do_flatten_header` does with encoder `q`. -/
inductive HeaderStep (ctx : FlattenCtx) (q : Encoder) (staticIndex : Int)
    (isExact likely : Bool) (name : Name) (value : Bytes) (dc : Bool) :
    FlattenCtx → Prop where
  | static : 0 ≤ staticIndex → isExact = true →
      HeaderStep ctx q staticIndex isExact likely name value dc
        (flattenStaticIndexed ctx staticIndex)
  | indexed {i : Int} {e : Entry} : 0 ≤ i →
      i ≤ lookupStart q ctx.encoderBuf.isNone → FoundAt q.table name i e →
      e.value = value →
      HeaderStep ctx q staticIndex isExact likely name value dc
        (flattenDynamicIndexed ctx i)
  | insert {i : Int} {ex : Bool} {buf : Bytes} : ctx.encoderBuf = some buf →
      lookupDynamic q name value false = .ok (i, ex) →
      ¬ (0 ≤ i ∧ ex = true) →
      insertsEntry q staticIndex i likely name value = true →
      HeaderStep ctx q staticIndex isExact likely name value dc
        (insertedCtx ctx q buf staticIndex i name value)
  | literal {i : Int} {ex : Bool} :
    lookupDynamic q name value ctx.encoderBuf.isNone = .ok (i, ex) →
      HeaderStep ctx q staticIndex isExact likely name value dc
        (flattenLiteral ctx staticIndex i name value dc)

/-- The outcomes, one per branch. -/
theorem doFlattenHeader_step {isExact : Bool} {dc : Bool}
    (hq : ctx.qpack = some q)
    (h : doFlattenHeader ctx staticIndex isExact likely name value dc =
      .ok ctx') :
    HeaderStep ctx q staticIndex isExact likely name value dc ctx' := by
  unfold doFlattenHeader at h
  by_cases hs : staticIndex ≥ 0 ∧ isExact = true
  · rw [if_pos hs] at h
    cases h
    exact .static hs.1 hs.2
  rw [if_neg hs, hq] at h
  simp only at h
  cases hl : lookupDynamic q name value ctx.encoderBuf.isNone with
  | error e => simp [hl] at h
  | ok r =>
    obtain ⟨i, ex⟩ := r
    simp only [hl] at h
    by_cases hx : i ≥ 0 ∧ ex = true
    · rw [if_pos hx] at h
      cases h
      obtain ⟨hle, e, he, hv⟩ := lookupDynamic_found hl hx.1
      exact .indexed hx.1 hle he (hv hx.2)
    rw [if_neg hx] at h
    cases hb : ctx.encoderBuf with
    | none =>
      simp only [hb] at h
      cases h
      exact .literal hl
    | some buf =>
      simp only [hb] at h
      split at h
      next hins =>
        cases h
        rw [hb] at hl
        exact .insert hb hl hx hins
      next =>
        cases h
        exact .literal hl

-- ==== whole sections

/-- The context in the middle of a section that encoder `q₀` began: of the
encoder only the table has changed, and the largest reference is to an entry
there is (to an acknowledged one where the encoder stream is not used). -/
structure CtxInv (q₀ : Encoder) (ctx : FlattenCtx) (q : Encoder) : Prop where
  qpack : ctx.qpack = some q
  frame : q = { q₀ with table := q.table }
  table : TableInv q.table
  grows : q₀.table.totalInserts ≤ q.table.totalInserts
  ref_nonneg : 0 ≤ ctx.largestRef
  ref_lt : ctx.largestRef < q.table.totalInserts
  ref_acked : ctx.encoderBuf = none → ctx.largestRef ≤ lookupStart q₀ true
  unblocked : ctx.encoderBuf.isSome → q₀.numBlocked < q₀.maxBlocked

theorem lookupStart_eq (h : q = { q₀ with table := q.table }) :
    lookupStart q true = lookupStart q₀ true := by
  rw [h]
  rfl

/-- At the beginning. -/
theorem CtxInv.prepare (h : TableInv q.table) (streamId : Int64)
    (buf : Option Bytes) :
    CtxInv q (prepareFlatten (some q) streamId buf) q where
  qpack := rfl
  frame := rfl
  table := h
  grows := le_rfl
  ref_nonneg := le_rfl
  ref_lt := Int.natCast_pos.mpr h.total_pos
  ref_acked := fun _ => Int.natCast_nonneg _
  unblocked := by
    intro hs
    by_contra hb
    simp [prepareFlatten, hb] at hs

/-- A dynamic reference keeps the invariant. -/
theorem CtxInv.indexed (h : CtxInv q₀ ctx q) (hlt : i < q.table.totalInserts)
    (hacked : ctx.encoderBuf = none → i ≤ lookupStart q₀ true) :
    CtxInv q₀ (flattenDynamicIndexed ctx i) q where
  qpack := h.qpack
  frame := h.frame
  table := h.table
  grows := h.grows
  ref_nonneg := by
    have := h.ref_nonneg
    simp only [flattenDynamicIndexed]
    split <;> omega
  ref_lt := by
    have := h.ref_lt
    simp only [flattenDynamicIndexed]
    split <;> omega
  ref_acked := by
    intro hb
    have := h.ref_acked hb
    have := hacked hb
    simp only [flattenDynamicIndexed]
    split <;> omega
  unblocked := h.unblocked

/-- A field that only appends to the section keeps the invariant. -/
theorem CtxInv.append (h : CtxInv q₀ ctx q) (buf : Bytes) :
    CtxInv q₀ { ctx with headersBuf := buf } q :=
  ⟨h.qpack, h.frame, h.table, h.grows, h.ref_nonneg, h.ref_lt, h.ref_acked,
    h.unblocked⟩

theorem CtxInv.literal (h : CtxInv q₀ ctx q) (hlt : i < q.table.totalInserts)
    (hacked : ctx.encoderBuf = none → i ≤ lookupStart q₀ true)
    (staticIndex : Int) (name : Name) (value : Bytes) (dc : Bool) :
    CtxInv q₀ (flattenLiteral ctx staticIndex i name value dc) q := by
  unfold flattenLiteral
  split
  · exact h.append _
  · split
    · exact (h.indexed hlt hacked).append _
    · exact h.append _

section

variable (h : CtxInv q₀ ctx q) {buf : Bytes} (hbuf : ctx.encoderBuf = some buf)
  (hins : insertsEntry q staticIndex i likely name value = true)
include h hbuf hins

theorem CtxInv.added : CtxInv q₀ (addedCtx ctx q buf staticIndex i name value)
      { q with table := q.table.insert ⟨name, value, .none⟩ } := by
  have hroom := room_of_insertsEntry hins
  have htotal := HeaderTable.insert_totalInserts hroom
  have hgrows := h.grows
  have hlt := h.ref_lt
  exact
    { qpack := rfl
      frame := by rw [h.frame]
      table := h.table.insert hroom
      grows := by
        show q₀.table.totalInserts ≤ (q.table.insert _).totalInserts
        omega
      ref_nonneg := h.ref_nonneg
      ref_lt := by
        show ctx.largestRef < (q.table.insert _).totalInserts
        omega
      ref_acked := nofun
      unblocked := fun _ => h.unblocked (by simp [hbuf]) }

theorem CtxInv.inserted :
    CtxInv q₀ (insertedCtx ctx q buf staticIndex i name value)
      { q with table := q.table.insert ⟨name, value, .none⟩ } :=
  (h.added hbuf hins).indexed (Int.sub_one_lt_of_le le_rfl) nofun

end

theorem lookupDynamic_lt (h : TableInv q.table) {ex : Bool}
    (hl : lookupDynamic q name value ackedOnly = .ok (i, ex)) :
    i < q.table.totalInserts ∧ i ≤ lookupStart q ackedOnly := by
  by_cases hi : 0 ≤ i
  · obtain ⟨hle, e, he, -⟩ := lookupDynamic_found hl hi
    exact ⟨he.lt.2, hle⟩
  · have := h.total_pos
    omega

/-- Each outcome keeps it. -/
theorem CtxInv.header (h : CtxInv q₀ ctx q) {isExact : Bool} {dc : Bool}
    (hstep : HeaderStep ctx q staticIndex isExact likely name value dc ctx') :
    ∃ q', CtxInv q₀ ctx' q' := by
  have hacked : ∀ {i : Int}, i ≤ lookupStart q ctx.encoderBuf.isNone →
      ctx.encoderBuf = none → i ≤ lookupStart q₀ true := by
    intro i hle hb
    rwa [hb, Option.isNone_none, lookupStart_eq h.frame] at hle
  cases hstep with
  | static => exact ⟨q, h.append _⟩
  | indexed _ hle he _ => exact ⟨q, h.indexed he.lt.2 (hacked hle)⟩
  | insert hbuf _ _ hins => exact ⟨_, h.inserted hbuf hins⟩
  | literal hl =>
    obtain ⟨hlt, hle⟩ := lookupDynamic_lt h.table hl
    exact ⟨q, h.literal hlt (hacked hle) _ _ _ _⟩

/-- And each call. -/
theorem CtxInv.call (h : CtxInv q₀ ctx q) {c : Call}
    (hrun : c.run ctx = .ok ctx') : ∃ q', CtxInv q₀ ctx' q' := by
  cases c with
  | staticIndexed index =>
    cases hrun
    exact ⟨q, h.append _⟩
  | header => exact h.header (doFlattenHeader_step h.qpack hrun)

/-- The stream, the base index and whether the encoder stream may be written
to do not change. -/
structure SameSection (ctx ctx' : FlattenCtx) : Prop where
  streamId : ctx'.streamId = ctx.streamId
  baseIndex : ctx'.baseIndex = ctx.baseIndex
  isNone : ctx'.encoderBuf.isNone = ctx.encoderBuf.isNone

theorem sameSection_call (hq : ctx.qpack = some q) {c : Call}
    (hrun : c.run ctx = .ok ctx') : SameSection ctx ctx' := by
  cases c with
  | staticIndexed index =>
    cases hrun
    exact ⟨rfl, rfl, rfl⟩
  | header =>
    cases doFlattenHeader_step hq hrun with
    | static => exact ⟨rfl, rfl, rfl⟩
    | indexed => exact ⟨rfl, rfl, rfl⟩
    | insert hbuf =>
      refine ⟨rfl, rfl, ?_⟩
      simp [insertedCtx, addedCtx, flattenDynamicIndexed, hbuf]
    | literal =>
      obtain ⟨ref, buf, h⟩ := flattenLiteral_frame ctx _ _ _ _ _
      rw [h]
      exact ⟨rfl, rfl, rfl⟩

-- ---------------------------------------------------------- no fault occurs

/-- The reference a section is sent with: it may be raised to what is known to
have been received. -/
def sentRef (q : Encoder) (largestRef : Int) : Int :=
  if largestRef < q.largestKnownReceived.toInt then
    q.largestKnownReceived.toInt
  else largestRef

/-- The encoder after a section with this largest reference. -/
def Encoder.sent (q : Encoder) (streamId : Int64) (largestRef : Int) :
    Encoder :=
  if largestRef = 0 then q
  else
    let isBlocking := decide (largestRef > q.largestKnownReceived.toInt)
    { q with
      numBlocked := if isBlocking then q.numBlocked + 1 else q.numBlocked
      inflight := q.inflight ++ [⟨streamId, Int64.ofInt (sentRef q largestRef),
          if isBlocking then 1 else 0⟩] }

theorem sent_table (q : Encoder) (streamId : Int64) (largestRef : Int) :
    (q.sent streamId largestRef).table = q.table := by
  unfold Encoder.sent
  split <;> rfl

/-- The octets of a section: the prefix and the field lines. -/
def sectionOf (q : Encoder) (ctx : FlattenCtx) : Bytes :=
  (if ctx.largestRef = 0 then sectionPrefix 0 0
    else sectionPrefix (sentRef q ctx.largestRef) ctx.baseIndex) ++
    ctx.headersBuf

/-- The search of a section that `q` begins starts inside of the table. -/
def StartsInRange (q : Encoder) (ctx : FlattenCtx) : Prop :=
  ctx.encoderBuf = none → lookupStart q true < q.table.totalInserts

/-- A section that may block is only begun when there is room for one. -/
theorem numBlocked_lt_of_blocking (h : CtxInv q₀ ctx q)
    (hstart : StartsInRange q₀ ctx)
    (hgt : ctx.largestRef > q₀.largestKnownReceived.toInt) :
    q₀.numBlocked < q₀.maxBlocked := by
  cases hb : ctx.encoderBuf with
  | some buf => exact h.unblocked (by simp [hb])
  | none =>
    have hlt := hstart hb
    have hgrows := h.grows
    have hle := h.ref_acked hb
    -- an index inside of the table is not negative as an `int64_t`
    have htotal := h.table.total_lt
    have hnat : lookupStart q₀ true = q₀.largestKnownReceived.toBitVec.toNat :=
      rfl
    have hknown : q₀.largestKnownReceived.toInt = lookupStart q₀ true :=
      BitVec.toInt_eq_toNat_of_lt (by omega)
    omega

/-- The assertion of `finalize_flatten` holds. -/
theorem finalizeFlatten_eq (h : CtxInv q₀ ctx q)
    (hstart : StartsInRange q₀ ctx) :
    finalizeFlatten ctx = .ok (some (q.sent ctx.streamId ctx.largestRef),
      sectionOf q ctx) := by
  unfold finalizeFlatten Encoder.sent sectionOf
  by_cases href : ctx.largestRef = 0
  · rw [if_pos href, if_pos href, if_pos href, h.qpack]
  · have hno : ¬ (decide (ctx.largestRef > q.largestKnownReceived.toInt) =
        true ∧
        ¬ q.numBlocked < q.maxBlocked) := by
      rintro ⟨hgt, hnb⟩
      rw [h.frame] at hgt hnb
      have hlt := numBlocked_lt_of_blocking h hstart (of_decide_eq_true hgt)
      exact hnb hlt
    simp only [if_neg href, h.qpack, if_neg hno, sentRef]

theorem startsInRange_prepare {s : EncoderState} {supplied : Bool}
    (h : SearchInRange q supplied) (streamId : Int64) :
    StartsInRange q (prepareFlatten (some q) streamId (s.buf supplied)) := by
  intro hnone
  rcases h with ⟨hsup, hnb⟩ | hlt
  · simp [prepareFlatten, hsup, hnb, EncoderState.buf] at hnone
  · exact hlt

/-- No call fails where the search starts inside. -/
theorem call_ok (h : CtxInv q₀ ctx q) (hstart : StartsInRange q₀ ctx)
    (c : Call) : ∃ ctx', c.run ctx = .ok ctx' := by
  cases c with
  | staticIndexed index => exact ⟨_, rfl⟩
  | header staticIndex isExact likely name value dc =>
    have hstart : lookupStart q ctx.encoderBuf.isNone <
        q.table.totalInserts := by
      cases hb : ctx.encoderBuf with
      | none =>
        have := hstart hb
        have := h.grows
        rw [Option.isNone_none, lookupStart_eq h.frame]
        omega
      | some buf => exact Nat.sub_one_lt h.table.total_pos.ne'
    simp only [Call.run, doFlattenHeader, h.qpack, lookupDynamic, hstart,
      if_true]
    split
    · exact ⟨_, rfl⟩
    · split
      · exact ⟨_, rfl⟩
      · cases ctx.encoderBuf with
        | none => exact ⟨_, rfl⟩
        | some buf =>
          simp only
          split <;> exact ⟨_, rfl⟩

/-- Serialising a section does not fail. -/
theorem calls_ok (hT : TableInv q.table) {streamId : Int64}
    {buf : Option Bytes}
    (hstart : StartsInRange q (prepareFlatten (some q) streamId buf))
    (calls : List Call) :
    ∃ ctx q', calls.foldlM Call.run (prepareFlatten (some q) streamId buf) =
        .ok ctx ∧ CtxInv q ctx q' ∧ StartsInRange q ctx ∧
        ctx.streamId = streamId := by
  have hstep : ∀ ctx c, ((∃ q', CtxInv q ctx q') ∧ StartsInRange q ctx ∧
      ctx.streamId = streamId) →
      ∃ ctx', Call.run ctx c = .ok ctx' ∧
        ((∃ q', CtxInv q ctx' q') ∧ StartsInRange q ctx' ∧
          ctx'.streamId = streamId) := by
    rintro ctx c ⟨⟨q', hinv⟩, hs, hid⟩
    obtain ⟨ctx', hrun⟩ := call_ok hinv hs c
    have hsame := sameSection_call hinv.qpack hrun
    refine ⟨ctx', hrun, hinv.call hrun, fun hnone => hs ?_,
      hsame.streamId.trans hid⟩
    simpa [hnone] using hsame.isNone.symm
  obtain ⟨ctx, hrun, ⟨q', hinv⟩, hs, hid⟩ := run_of_total hstep
    ⟨⟨q, .prepare hT streamId buf⟩, hstart, rfl⟩ calls
  exact ⟨ctx, q', hrun, hinv, hs, hid⟩

/-- What a whole section leaves behind. -/
theorem flatten_eq {q' : Encoder} {streamId : Int64} {buf : Option Bytes}
    {calls : List Call}
    (hrun : calls.foldlM Call.run (prepareFlatten (some q) streamId buf) =
      .ok ctx) (h : CtxInv q ctx q') (hstart : StartsInRange q ctx) :
    flatten (some q) streamId buf calls =
      .ok ⟨some (q'.sent ctx.streamId ctx.largestRef),
        ctx.encoderBuf.or buf, sectionOf q' ctx⟩ := by
  unfold flatten
  rw [hrun]
  simp only [finalizeFlatten_eq h hstart]

end H2o.Qpack
