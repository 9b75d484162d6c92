/-
The in-flight ledger of an encoder.

# The ledger

What the list should hold is said by the octets on the wire: a section whose
Required Insert Count is not zero enters it, an acknowledgement takes out the
first section of its stream, a cancellation all of them (`ledgerStep`). A
section may block if it refers to more than the peer was known to have.

# The two results

As long as removals are exact, the encoder's list is the ledger and its counter
the number of sections that may block, and no step fails. As long as increments
do not overflow on top of that, the peer's acknowledgements stay below the
number of inserts, and the lookups inside of the table.
-/
import H2o.Qpack.Proofs.Flatten
import H2o.Qpack.Proofs.Inflight
import H2o.Qpack.Proofs.Wire

namespace H2o.Qpack

open Hpack Lib List Except

variable {q q' : Encoder} {l : List Inflight} {streamId : Nat}
  {s : EncoderState}

-- ==== ledger

/-- The entry of a section, from the Required Insert Count it begins with. -/
def sectionEntry (streamId known : Int64) (fieldSection : Bytes) :
    Option Inflight :=
  match decodeInt fieldSection 8 with
  | .error _ => none
  | .ok (encoded, _) =>
    if encoded = 0 then none
    else
      some ⟨streamId, Int64.ofNat (encoded - 1),
        if ((encoded - 1 : Nat) : Int) > known.toInt then 1 else 0⟩

/-- What an instruction of the decoder stream takes out. -/
def ledgerApply (l : List Inflight) : DecoderInstruction → List Inflight
  | .tableStateSynchronize _ => l
  | .headerAck streamId => l.eraseP fun e => e.streamId == Int64.ofNat streamId
  | .streamCancellation streamId =>
    l.filter fun e => e.streamId ≠ Int64.ofNat streamId

/-- The ledger after an event in state `s`. -/
def ledgerStep (s : EncoderState) (l : List Inflight) :
    EncoderEvent → List Inflight
  | .flatten streamId supplied m =>
    match m.flatten (some s.encoder) streamId (s.buf supplied) with
    | .error _ => l
    | .ok r =>
      l ++ (sectionEntry streamId s.encoder.largestKnownReceived
        r.fieldSection).toList
  | .input src =>
    ((inputTrace src.length s.encoder src).map Prod.fst).foldl ledgerApply l

/-- An encoder and the ledger of its session. -/
structure Ledgered where
  state : EncoderState
  ledger : List Inflight

def Ledgered.step (g : Ledgered) (e : EncoderEvent) : Except Fault Ledgered :=
  match g.state.step e with
  | .error x => .error x
  | .ok s => .ok ⟨s, ledgerStep g.state g.ledger e⟩

/-- The removals an instruction causes are exact. -/
def RemovesExactly (q : Encoder) : DecoderInstruction → Prop
  | .tableStateSynchronize _ => True
  | .headerAck streamId =>
    ∀ i ∈ q.inflight.findIdx? fun e => e.streamId == Int64.ofNat streamId,
      EvictExact q.inflight i
  | .streamCancellation streamId =>
    CancelExact (Int64.ofNat streamId) q.inflight.length 0 q.inflight

instance (q : Encoder) (i : DecoderInstruction) :
    Decidable (RemovesExactly q i) := by
  cases i <;> (unfold RemovesExactly; infer_instance)

-- ==== instructions

/-- The encoder's list is the ledger, and its numbers are in range. -/
structure LedgerInv (q : Encoder) (l : List Inflight) : Prop where
  table : TableInv q.table
  inflight : q.inflight = l
  count : CountInv q
  known : q.largestKnownReceived.toInt < q.table.totalInserts
  refs : ∀ e ∈ l, 1 ≤ e.largestRef.toInt ∧ e.largestRef.toInt <
    q.table.totalInserts

theorem LedgerInv.tableStateSynchronize (h : LedgerInv q l) {insertCount : Nat}
    (hh : handleTableStateSynchronize q insertCount = .ok q') :
    LedgerInv q' l := by
  unfold handleTableStateSynchronize at hh
  simp only at hh
  split at hh
  · cases hh
  rename_i hno
  cases hh
  have hlt : (q.largestKnownReceived + Int64.ofNat insertCount).toInt <
      q.table.totalInserts := by
    have htotal := h.table.total_lt
    have hq : q.totalInserts.toInt = q.table.totalInserts :=
      Int64.toInt_ofNat_of_lt (by omega)
    rw [ge_iff_le, Int64.le_iff_toInt_le] at hno
    omega
  exact ⟨h.table, h.inflight, ⟨h.count.count, h.count.le⟩, hlt, h.refs⟩

/-- An acknowledgement may raise what is known to be received to the reference
of the section. -/
theorem known_headerAck (hh : handleHeaderAck q streamId = .ok q') :
    q'.largestKnownReceived = q.largestKnownReceived ∨
      ∃ e ∈ q.inflight, q'.largestKnownReceived = e.largestRef := by
  unfold handleHeaderAck at hh
  cases hf : q.inflight.findIdx? fun e =>
    e.streamId == Int64.ofNat streamId with
  | none => simp [hf] at hh
  | some i =>
    obtain ⟨hi, -, -⟩ := findIdx?_eq_some_iff_getElem.mp hf
    simp only [hf, getD_eq_getElem _ _ hi] at hh
    cases hh
    split
    · exact .inr ⟨_, getElem_mem hi, rfl⟩
    · exact .inl rfl

/-- The section acknowledged is taken out. -/
theorem LedgerInv.headerAck (h : LedgerInv q l)
    (hex : RemovesExactly q (.headerAck streamId))
    (hh : handleHeaderAck q streamId = .ok q') :
    LedgerInv q' (ledgerApply l (.headerAck streamId)) := by
  obtain rfl := h.inflight
  unfold handleHeaderAck at hh
  cases hf : q.inflight.findIdx? fun e =>
    e.streamId == Int64.ofNat streamId with
  | none => simp [hf] at hh
  | some i =>
    obtain ⟨hi, -, -⟩ := findIdx?_eq_some_iff_getElem.mp hf
    have herase : ledgerApply q.inflight (.headerAck streamId) =
        q.inflight.eraseIdx i := by
      rw [ledgerApply, eraseP_eq_eraseIdx, hf]
    obtain ⟨hpos, hlt⟩ := h.refs q.inflight[i] (getElem_mem hi)
    simp only [hf, getD_eq_getElem _ _ hi] at hh
    -- the acknowledged section may raise what is known to be received
    obtain ⟨k, hk, hq⟩ : ∃ k : Int64, k.toInt < q.table.totalInserts ∧
        q' = evictInflightByIndex { q with largestKnownReceived := k } i := by
      cases hh
      split
      · exact ⟨_, hlt, rfl⟩
      · exact ⟨_, h.known, rfl⟩
    obtain ⟨hlist, hcount, -⟩ := @evictInflightByIndex_spec
      { q with largestKnownReceived := k } i hi (hex i hf)
      ⟨h.count.count, h.count.le⟩
    rw [herase, hq]
    exact ⟨h.table, hlist, hcount, hk, fun e he =>
      h.refs e (mem_of_mem_eraseIdx he)⟩

theorem LedgerInv.known_streamCancellation (h : LedgerInv q l)
    (hex : RemovesExactly q (.streamCancellation streamId)) :
    (handleStreamCancellation q streamId).largestKnownReceived =
      q.largestKnownReceived := by
  obtain ⟨-, -, hsame⟩ := cancelLoop_spec h.count (by omega) (by simp) hex
  unfold handleStreamCancellation
  rw [hsame]

/-- All sections of a stream are. -/
theorem LedgerInv.streamCancellation (h : LedgerInv q l)
    (hex : RemovesExactly q (.streamCancellation streamId)) :
    LedgerInv (handleStreamCancellation q streamId)
      (ledgerApply l (.streamCancellation streamId)) := by
  have hknown := h.known_streamCancellation hex
  obtain rfl := h.inflight
  obtain ⟨hlist, hcount, -⟩ := cancelLoop_spec h.count (by omega) (by simp) hex
  have htable : (handleStreamCancellation q streamId).table = q.table :=
    cancelLoop_table _ _ _ _
  refine ⟨htable ▸ h.table, hlist, hcount, ?_, ?_⟩
  · rw [hknown, htable]
    exact h.known
  · intro e he
    rw [htable]
    exact h.refs e (mem_of_mem_filter he)

theorem LedgerInv.instruction (h : LedgerInv q l) {i : DecoderInstruction}
    (hex : RemovesExactly q i) (hh : handleDecoderInstruction q i = .ok q') :
    LedgerInv q' (ledgerApply l i) := by
  cases i with
  | tableStateSynchronize insertCount => exact h.tableStateSynchronize hh
  | headerAck streamId => exact h.headerAck hex hh
  | streamCancellation streamId => exact ok.inj hh ▸ h.streamCancellation hex

-- ==== sections

/-- The entry of a section that the encoder has built. -/
theorem sectionEntry_sectionOf {q₀ : Encoder} {ctx : FlattenCtx}
    (h : CtxInv q₀ ctx q)
    (hknown : q₀.largestKnownReceived.toInt < q₀.table.totalInserts) :
    sectionEntry ctx.streamId q₀.largestKnownReceived (sectionOf q ctx) =
      if ctx.largestRef = 0 then none
      else
        some ⟨ctx.streamId, Int64.ofInt (sentRef q ctx.largestRef),
          if ctx.largestRef > q₀.largestKnownReceived.toInt then 1
            else 0⟩ := by
  have hnonneg := h.ref_nonneg
  have hlt := h.ref_lt
  have hgrows := h.grows
  have htotal := h.table.total_lt
  unfold sectionEntry sectionOf
  by_cases hz : ctx.largestRef = 0
  · have hint := @decodeInt_sectionPrefix 0 (by decide) 0 ctx.headersBuf
    rw [if_pos hz, if_pos hz]
    simp only [Nat.cast_zero] at hint
    rfl
  obtain ⟨l, hl⟩ := Int.eq_ofNat_of_zero_le
    (show 0 ≤ sentRef q ctx.largestRef by unfold sentRef; split <;> omega)
  have hlkr : q.largestKnownReceived = q₀.largestKnownReceived := by
    rw [h.frame]
  have href : ctx.largestRef ≤ l ∧ l < q.table.totalInserts ∧
      (ctx.largestRef > q₀.largestKnownReceived.toInt ↔
        (l : Int) > q₀.largestKnownReceived.toInt) := by
    rw [sentRef, hlkr] at hl
    split at hl <;> omega
  rw [if_neg hz, if_neg hz, hl,
    @decodeInt_sectionPrefix l (by omega) ctx.baseIndex ctx.headersBuf,
    if_neg (by omega)]
  simp only [Nat.add_sub_cancel, href.2.2]
  rfl

/-- A section that may block is counted. -/
theorem CountInv.sent (h : CountInv q) {b : Bool}
    (hroom : b = true → q.numBlocked < q.maxBlocked) {e : Inflight}
    (he : e.isBlocking = if b then 1 else 0)
    (hmax : q'.maxBlocked = q.maxBlocked)
    (hnum : q'.numBlocked = if b then q.numBlocked + 1 else q.numBlocked)
    (hinflight : q'.inflight = q.inflight ++ [e]) : CountInv q' := by
  have hc := h.count
  cases b with
  | false =>
    refine ⟨?_, ?_⟩
    · rw [hnum, hinflight, blockedCount]
      simpa [he, blockedCount] using hc
    · rw [hnum, hmax]
      exact h.le
  | true =>
    have hlt := UInt16.lt_iff_toNat_lt.mp (hroom rfl)
    have hbound := q.maxBlocked.toNat_lt
    have hadd : (q.numBlocked + 1).toNat = q.numBlocked.toNat + 1 := by
      exact Nat.mod_eq_of_lt (show q.numBlocked.toNat + 1 < 2 ^ 16 by omega)
    refine ⟨?_, ?_⟩
    · rw [hnum, hinflight, if_pos rfl, hadd, blockedCount, hc]
      simp [he, blockedCount]
    · rw [hnum, hmax, if_pos rfl, UInt16.le_iff_toNat_le]
      omega

/-- The encoder after a section, and its ledger. -/
theorem LedgerInv.sent {q₀ : Encoder} {ctx : FlattenCtx} (h : LedgerInv q₀ l)
    (hctx : CtxInv q₀ ctx q) (hstart : StartsInRange q₀ ctx) :
    LedgerInv (q.sent ctx.streamId ctx.largestRef)
      (l ++ (sectionEntry ctx.streamId q₀.largestKnownReceived
        (sectionOf q ctx)).toList) := by
  rw [sectionEntry_sectionOf hctx h.known]
  obtain rfl := h.inflight
  have hframe := hctx.frame
  have hgrows := hctx.grows
  have htotal := hctx.table.total_lt
  have hlkr : q.largestKnownReceived = q₀.largestKnownReceived := by
    rw [hframe]
  have hinflight : q.inflight = q₀.inflight := by rw [hframe]
  have hcount : CountInv q := by
    rw [hframe]
    exact ⟨h.count.count, h.count.le⟩
  have hknown := h.known
  have hrefs : ∀ e ∈ q₀.inflight, 1 ≤ e.largestRef.toInt ∧
      e.largestRef.toInt < q.table.totalInserts := by
    intro e he
    have := h.refs e he
    omega
  by_cases hz : ctx.largestRef = 0
  · rw [Encoder.sent, if_pos hz, if_pos hz, Option.toList_none, append_nil]
    exact ⟨hctx.table, hinflight, hcount, by rw [hlkr]; omega, hrefs⟩
  have hsent : 1 ≤ sentRef q ctx.largestRef ∧ sentRef q ctx.largestRef <
      q.table.totalInserts := by
    have := hctx.ref_nonneg
    have := hctx.ref_lt
    rw [sentRef, hlkr]
    split <;> omega
  have hroom := numBlocked_lt_of_blocking hctx hstart
  rw [Encoder.sent, if_neg hz, if_neg hz, Option.toList_some, hlkr, hinflight]
  refine ⟨hctx.table, ?_, ?_, ?_, ?_⟩
  · simp only [decide_eq_true_eq]
  · have hroom' : decide (ctx.largestRef > q₀.largestKnownReceived.toInt) =
        true →
          q.numBlocked < q.maxBlocked := by
      rw [hframe, decide_eq_true_eq]
      exact hroom
    exact hcount.sent hroom' rfl rfl rfl (by rw [hinflight])
  · show q₀.largestKnownReceived.toInt < (q.table.totalInserts : Int)
    omega
  · intro e he
    rcases mem_append.mp he with he | he
    · exact hrefs e he
    · rw [mem_singleton] at he
      rw [he]
      simp only
      rw [Int64.toInt_ofInt_of_le (by omega) (by omega)]
      exact hsent

-- ==== sessions

/-- Searches start inside of the table, and removals are exact. -/
def Ledgered.Cond (g : Ledgered) : EncoderEvent → Prop
  | .flatten _ supplied _ => SearchInRange g.state.encoder supplied
  | .input src => InputMeets RemovesExactly src.length g.state.encoder src

instance (g : Ledgered) : DecidablePred g.Cond
  | .flatten _ supplied _ =>
    inferInstanceAs (Decidable (SearchInRange g.state.encoder supplied))
  | .input src =>
    inferInstanceAs (Decidable
      (InputMeets RemovesExactly src.length g.state.encoder src))

theorem LedgerInv.create (size : UInt32) (maxBlocked : UInt16) :
    LedgerInv (.create size maxBlocked) [] where
  table := ⟨rfl, Nat.zero_le _, size.toNat_lt⟩
  inflight := rfl
  count := ⟨rfl, UInt16.le_iff_toNat_le.mpr (Nat.zero_le _)⟩
  known := by
    show (0 : Int64).toInt < ((1 : Nat) : Int)
    decide
  refs := nofun

/-- A section is entered as it is sent. -/
theorem LedgerInv.flatten (h : LedgerInv s.encoder l) {supplied : Bool}
    (hs : SearchInRange s.encoder supplied) (streamId : Int64) (m : Message) :
    ∃ s', s.step (.flatten streamId supplied m) = .ok s' ∧
      LedgerInv s'.encoder (ledgerStep s l (.flatten streamId supplied m)) ∧
      s'.encoder.largestKnownReceived = s.encoder.largestKnownReceived := by
  obtain ⟨ctx, q, hrun, hctx, hstart, hid⟩ :=
    calls_ok h.table (startsInRange_prepare hs streamId) m.calls
  have hflat := (m.flatten_eq ..).trans (flatten_eq hrun hctx hstart)
  have hsent := h.sent hctx hstart
  refine ⟨_, by rw [EncoderState.step, hflat], ?_, ?_⟩
  · simp only [ledgerStep, hflat]
    rw [hid] at hsent
    rwa [hid]
  · show (q.sent _ _).largestKnownReceived = _
    rw [Encoder.sent]
    split <;> rw [hctx.frame]

theorem LedgerInv.input (h : LedgerInv s.encoder l) {src : Bytes}
    (hex : InputMeets RemovesExactly src.length s.encoder src) :
    LedgerInv (encoderHandleInput s.encoder src).1
      (ledgerStep s l (.input src)) := by
  have hstep : ∀ q l i q', LedgerInv q l → RemovesExactly q i →
      handleDecoderInstruction q i = .ok q' →
      LedgerInv q' (ledgerApply l i) :=
    fun _ _ _ _ hq hx hh => hq.instruction hx hh
  exact (encoderInstructions_invariant hstep h hex).1

/-- What one event keeps. -/
theorem LedgerInv.step {g : Ledgered} (h : LedgerInv g.state.encoder g.ledger)
    {e : EncoderEvent} (hcond : g.Cond e) :
    ∃ g', g.step e = .ok g' ∧ LedgerInv g'.state.encoder g'.ledger := by
  cases e with
  | flatten streamId supplied m =>
    obtain ⟨s, hstep, hinv, -⟩ := h.flatten hcond streamId m
    exact ⟨_, by rw [Ledgered.step, hstep], hinv⟩
  | input src => exact ⟨_, rfl, h.input hcond⟩

/-- As long as the search of each section starts inside of the table, and each
entry that is removed is followed by what the unmoved bytes of it already hold,
no step fails, the list is the ledger, and the counter counts the entries that
may block. -/
theorem inflight_of_session (size : UInt32) (maxBlocked : UInt16)
    (events : List EncoderEvent)
    (hmeets : Meets Ledgered.step Ledgered.Cond ⟨.create size maxBlocked,
      []⟩ events) :
    ∃ g, events.foldlM Ledgered.step ⟨.create size maxBlocked, []⟩ = .ok g ∧
      g.state.encoder.inflight = g.ledger ∧
      g.state.encoder.numBlocked.toNat = blockedCount g.ledger ∧
      g.state.encoder.numBlocked ≤ g.state.encoder.maxBlocked := by
  have hstep : ∀ (g : Ledgered) e, LedgerInv g.state.encoder g.ledger →
      g.Cond e →
        ∃ g', g.step e = .ok g' ∧ LedgerInv g'.state.encoder g'.ledger :=
    fun _ _ h hcond => h.step hcond
  obtain ⟨g, hrun, hinv⟩ :=
    run_of_meets hstep (LedgerInv.create size maxBlocked) hmeets
  obtain ⟨hcount, hle⟩ := hinv.count
  rw [hinv.inflight] at hcount
  exact ⟨g, hrun, hinv.inflight, hcount, hle⟩

/-- A request with one header field. -/
def fieldEvent (streamId : Int64) (name value : String) : EncoderEvent :=
  .flatten streamId true (.request
    { method := ascii "GET"
      scheme := .https
      authority := ascii "a"
      path := ascii "/"
      protocol := none
      headers := [⟨.intern (ascii name), ascii value, false⟩]
      datagramFlowId := none })

/-- One of two inserts is acknowledged, then the later of two sections, and
the other sections are cancelled. -/
def settledEvents : List EncoderEvent :=
  [fieldEvent 0 "priority" "u=1", fieldEvent 4 "origin" "https://a",
    .input [0x01, 0x84], fieldEvent 8 "origin" "https://a",
    .input [0x48, 0x40]]

theorem inflight_of_settledEvents :
    ∃ g, settledEvents.foldlM Ledgered.step ⟨.create 4096 2, []⟩ = .ok g ∧
      g.state.encoder.inflight = g.ledger ∧
      g.state.encoder.numBlocked.toNat = blockedCount g.ledger ∧
      g.state.encoder.numBlocked ≤ g.state.encoder.maxBlocked :=
  inflight_of_session 4096 2 settledEvents (meets_iff.mp (by decide +kernel))

/-- The first of two sections is acknowledged. One byte of the second is moved
over it, its stream id; the reference that stays is the one of the first. -/
theorem inflight_reference_of_acknowledged_section :
    (match [fieldEvent 0 "priority" "u=1", fieldEvent 4 "origin" "https://a",
        .input [0x80]].foldlM Ledgered.step ⟨.create 4096 2, []⟩ with
      | .error _ => none
      | .ok g => some (g.state.encoder.inflight, g.ledger)) =
      some ([⟨4, 1, 1⟩], [⟨4, 2, 1⟩]) := by
  decide +kernel

-- ==== range

/-- What the peer has acknowledged is below the number of inserts. -/
def KnownOk (q : Encoder) : Prop :=
  0 ≤ q.largestKnownReceived.toInt ∧ q.largestKnownReceived.toInt <
    q.table.totalInserts

/-- Removals are exact, and an increment does not overflow. -/
def AcksInRange (q : Encoder) (i : DecoderInstruction) : Prop :=
  RemovesExactly q i ∧
    match i with
    | .tableStateSynchronize insertCount =>
      q.largestKnownReceived.toInt + insertCount ≤ int64Max
    | _ => True

instance (q : Encoder) (i : DecoderInstruction) :
    Decidable (AcksInRange q i) := by
  cases i <;> (unfold AcksInRange; infer_instance)

/-- Every instruction of an input is in range. -/
def EncoderState.AckCond (s : EncoderState) : EncoderEvent → Prop
  | .flatten .. => True
  | .input src => InputMeets AcksInRange src.length s.encoder src

instance (s : EncoderState) : DecidablePred s.AckCond
  | .flatten .. => .isTrue trivial
  | .input src =>
    inferInstanceAs (Decidable
      (InputMeets AcksInRange src.length s.encoder src))

/-- The ledger's invariant and the lower bound. -/
def RangeInv (q : Encoder) (l : List Inflight) : Prop :=
  LedgerInv q l ∧ 0 ≤ q.largestKnownReceived.toInt

theorem RangeInv.knownOk (h : RangeInv q l) : KnownOk q := ⟨h.2, h.1.known⟩

/-- So the search starts inside of the table. -/
theorem RangeInv.searchInRange (h : RangeInv q l) (supplied : Bool) :
    SearchInRange q supplied := by
  have hlt := h.1.known
  have hnat : lookupStart q true = q.largestKnownReceived.toBitVec.toNat := rfl
  have hint : q.largestKnownReceived.toInt =
      q.largestKnownReceived.toBitVec.toInt := rfl
  have hnonneg := h.2
  right
  rw [hint, BitVec.toInt_eq_toNat_cond] at hlt hnonneg
  rw [hnat]
  split at hlt <;> omega

/-- Acknowledgements do not reach beyond the inserts. -/
theorem RangeInv.instruction (h : RangeInv q l) {i : DecoderInstruction}
    (hok : AcksInRange q i) (hh : handleDecoderInstruction q i = .ok q') :
    RangeInv q' (ledgerApply l i) := by
  obtain ⟨hinv, hnonneg⟩ := h
  obtain ⟨hex, hrange⟩ := hok
  refine ⟨hinv.instruction hex hh, ?_⟩
  cases i with
  | tableStateSynchronize insertCount =>
    unfold handleDecoderInstruction handleTableStateSynchronize at hh
    simp only at hh hrange
    split at hh
    · cases hh
    · cases hh
      have hmax : int64Max < 2 ^ 63 := by decide
      show 0 ≤ (q.largestKnownReceived + Int64.ofNat insertCount).toInt
      rw [Int64.toInt_add, Int64.toInt_ofNat_of_lt (by omega),
        Int.bmod_eq_of_le (by omega) (by omega)]
      omega
  | headerAck streamId =>
    rcases known_headerAck hh with hk | ⟨e, he, hk⟩
    · exact hk ▸ hnonneg
    · have := hinv.refs e (hinv.inflight ▸ he)
      rw [hk]
      omega
  | streamCancellation streamId =>
    cases hh
    rw [hinv.known_streamCancellation hex]
    exact hnonneg

theorem RangeInv.input (h : RangeInv q l) {src : Bytes}
    (hok : InputMeets AcksInRange src.length q src) :
    (∃ l', RangeInv (encoderHandleInput q src).1 l') ∧
      ∀ p ∈ inputTrace src.length q src, KnownOk p.2 := by
  have hstep : ∀ q l i q', RangeInv q l → AcksInRange q i →
      handleDecoderInstruction q i = .ok q' → RangeInv q' (ledgerApply l i) :=
    fun _ _ _ _ hq hx hh => hq.instruction hx hh
  obtain ⟨hlast, htrace⟩ := encoderInstructions_invariant hstep h hok
  refine ⟨⟨_, hlast⟩, fun p hp => ?_⟩
  obtain ⟨l', hl'⟩ := htrace p hp
  exact hl'.knownOk

theorem RangeInv.step (h : RangeInv s.encoder l) {e : EncoderEvent}
    (hcond : s.AckCond e) :
    ∃ s', s.step e = .ok s' ∧ ∃ l', RangeInv s'.encoder l' := by
  cases e with
  | flatten streamId supplied m =>
    obtain ⟨s', hstep, hinv, hknown⟩ :=
      h.1.flatten (h.searchInRange supplied) streamId m
    exact ⟨s', hstep, _, hinv, hknown ▸ h.2⟩
  | input src => exact ⟨_, rfl, (h.input hcond).1⟩

theorem RangeInv.run {size : UInt32} {maxBlocked : UInt16}
    {events : List EncoderEvent}
    (hmeets : Meets EncoderState.step EncoderState.AckCond
      (.create size maxBlocked) events) :
    ∃ s, events.foldlM EncoderState.step (.create size maxBlocked) = .ok s ∧
      ∃ l, RangeInv s.encoder l := by
  have hstep : ∀ (s : EncoderState) e, (∃ l, RangeInv s.encoder l) →
      s.AckCond e → ∃ s', s.step e = .ok s' ∧ ∃ l, RangeInv s'.encoder l := by
    rintro s e ⟨l, h⟩ hcond
    exact h.step hcond
  exact run_of_meets hstep ⟨[], LedgerInv.create size maxBlocked,
    le_of_eq rfl⟩ hmeets

/-- As long as no increment overflows and removals are exact, what the peer has
acknowledged is in range after every instruction of every input, and no step
searches outside of the table. -/
theorem known_received_in_range (size : UInt32) (maxBlocked : UInt16)
    (events : List EncoderEvent)
    (hmeets : Meets EncoderState.step EncoderState.AckCond
      (.create size maxBlocked) events) :
    (∃ s, events.foldlM EncoderState.step (.create size maxBlocked) = .ok s ∧
      KnownOk s.encoder) ∧
      ∀ before src after, events = before ++ .input src :: after →
        ∃ s, before.foldlM EncoderState.step (.create size maxBlocked) =
          .ok s ∧
          ∀ p ∈ inputTrace src.length s.encoder src, KnownOk p.2 := by
  refine ⟨?_, ?_⟩
  · obtain ⟨s, hrun, l, hl⟩ := RangeInv.run hmeets
    exact ⟨s, hrun, hl.knownOk⟩
  · rintro before src after rfl
    obtain ⟨hbefore, hrest⟩ := hmeets.of_append
    obtain ⟨s, hrun, l, hl⟩ := RangeInv.run hbefore
    obtain ⟨hcond, -⟩ := hrest s hrun
    exact ⟨s, hrun, (hl.input hcond).2⟩

theorem known_received_of_settledEvents :
    (∃ s, settledEvents.foldlM EncoderState.step (.create 4096 2) = .ok s ∧
      KnownOk s.encoder) ∧
      ∀ before src after, settledEvents = before ++ .input src :: after →
        ∃ s, before.foldlM EncoderState.step (.create 4096 2) = .ok s ∧
          ∀ p ∈ inputTrace src.length s.encoder src, KnownOk p.2 :=
  known_received_in_range 4096 2 settledEvents
    (meets_iff.mp (by decide +kernel))

/-- The peer acknowledges one insert and then `INT64_MAX` more; the sum wraps
to a negative number, which passes the check. -/
def wrappingEvents : List EncoderEvent :=
  [fieldEvent 0 "priority" "u=1", .input [0x01],
    .input (encodeInt 0 (2 ^ 63 - 1) 6)]

/-- An acknowledgement of `INT64_MAX` further inserts is accepted. -/
theorem known_received_after_wrappingEvents :
    (match wrappingEvents.foldlM EncoderState.step (.create 4096 1) with
      | .error _ => none
      | .ok s => some s.encoder.largestKnownReceived.toInt) =
      some (-2 ^ 63) := by
  decide +kernel

end H2o.Qpack
