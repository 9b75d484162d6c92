/-
How the QPACK streams are cut does not matter.

The instructions are built from prefix integers and counted octets, which are
read the same whatever follows them (`stable_readEncoderInstruction`,
`stable_readDecoderInstruction`), and each takes an octet or more. The rest is
the rule of `Lib.Pieces` for a loop over such a reader. The blocked streams of
the decoder, which a call of the handler changes even if it takes nothing, are
left aside by `withoutBlocked`: no instruction reads them.
-/
import H2o.Qpack.Receive

namespace H2o.Qpack

open Hpack Lib Option Except List

-- ==== integers

theorem decodeIntOctets_zero (shift value : Nat) :
    decodeIntOctets 0 shift value = uncons .incomplete fun (b : UInt8) src =>
      if b &&& 128 ≠ 0 then .error .compression
      else if value + ((b &&& 127).toNat <<< shift) > int64Max then
        .error .compression
      else .ok (value + ((b &&& 127).toNat <<< shift), src) := by
  funext src
  cases src <;> rfl

theorem decodeIntOctets_succ (n shift value : Nat) :
    decodeIntOctets (n + 1) shift value =
      uncons .incomplete fun (b : UInt8) src =>
      if b &&& 128 = 0 then .ok (value + ((b &&& 127).toNat <<< shift), src)
      else decodeIntOctets n (shift + 7)
        (value + ((b &&& 127).toNat <<< shift)) src := by
  funext src
  cases src <;> rfl

/-- An integer read stays the same when more comes. -/
theorem stable_decodeIntOctets (n shift value : Nat) :
    Stable .incomplete (decodeIntOctets n shift value) := by
  induction n generalizing shift value with
  | zero =>
    rw [decodeIntOctets_zero]
    exact Stable.uncons fun b => Stable.ite (stable_error _)
      (Stable.ite (stable_error _) (stable_pure _))
  | succ n ih =>
    rw [decodeIntOctets_succ]
    exact Stable.uncons fun b => Stable.ite (stable_pure _) (ih _ _)

/-- The octets of an integer after its first. -/
def decodeIntRest (p : Nat) (b : UInt8) (src : Bytes) :
    Except Error (Nat × Bytes) :=
  if b.toNat &&& prefixMax p ≠ prefixMax p then
    .ok (b.toNat &&& prefixMax p, src)
  else
    match decodeIntOctets 8 0 (prefixMax p) src with
    | .ok r => .ok r
    | .error .incomplete => .error .incomplete
    | .error .compression => .error (.qpackDecompressionFailed none)

theorem decodeInt_eq_uncons (p : Nat) :
    (fun src => decodeInt src p) = uncons .incomplete (decodeIntRest p) := by
  funext src
  cases src with
  | nil => rfl
  | cons b src =>
    simp only [decodeInt, Hpack.decodeInt, uncons, decodeIntRest]
    by_cases hb : b.toNat &&& prefixMax p ≠ prefixMax p
    · rw [if_pos hb, if_pos hb]
    · rw [if_neg hb]
      refine Eq.trans ?_ (if_neg hb).symm
      cases decodeIntOctets 8 0 (prefixMax p) src with
      | ok r => rfl
      | error e => cases e <;> rfl

theorem stable_decodeIntRest (p : Nat) (b : UInt8) :
    Stable .incomplete (decodeIntRest p b) := by
  refine Stable.ite (stable_pure _) ?_
  have hoctets := stable_decodeIntOctets 8 0 (prefixMax p)
  refine ⟨?_, ?_, ?_⟩
  · intro src v rest more h
    cases hr : decodeIntOctets 8 0 (prefixMax p) src with
    | error e => cases e <;> simp [hr] at h
    | ok r =>
      rw [hr] at h
      cases h
      rw [hoctets.ok more hr]
  · intro src e more h hne
    cases hr : decodeIntOctets 8 0 (prefixMax p) src with
    | ok r => simp [hr] at h
    | error e' =>
      rw [hr] at h
      cases e' with
      | incomplete => exact absurd (error.inj h).symm hne
      | compression =>
        rw [hoctets.error more hr (by decide)]
        exact h
  · intro src v rest h
    cases hr : decodeIntOctets 8 0 (prefixMax p) src with
    | error e => cases e <;> simp [hr] at h
    | ok r =>
      rw [hr] at h
      cases h
      exact hoctets.le hr

theorem stable_decodeInt (p : Nat) :
    Stable .incomplete fun src => decodeInt src p := by
  rw [decodeInt_eq_uncons]
  exact Stable.uncons (stable_decodeIntRest p)

theorem progress_decodeInt (p : Nat) :
    Progress fun src => decodeInt src p := by
  rw [decodeInt_eq_uncons]
  exact progress_uncons (stable_decodeIntRest p)

-- ==== instructions

theorem stable_readValue (make : Bool → Bytes → EncoderInstruction) :
    Stable .incomplete (readValue make) :=
  Stable.peek fun _ => (stable_decodeInt 7).andThen fun valueLen =>
    (stable_split valueLen).andThen fun _ => stable_pure _

theorem stable_afterName (b : UInt8) (nameLen : Nat) :
    Stable .incomplete (andThen (split .incomplete nameLen) fun name =>
      readValue (.insertWithoutNameReference (b &&& 0x20 != 0) name)) :=
  (stable_split nameLen).andThen fun _ => stable_readValue _

/-- So does an instruction. -/
theorem stable_readEncoderInstruction :
    Stable .incomplete readEncoderInstruction := by
  refine Stable.peek fun b => ?_
  split
  · exact (stable_decodeInt 5).andThen fun _ => stable_pure _
  · exact (stable_decodeInt 5).andThen fun _ => stable_pure _
  · exact (stable_decodeInt 5).andThen fun n => stable_afterName b n
  · exact (stable_decodeInt 5).andThen fun n => stable_afterName b n
  · exact (stable_decodeInt 6).andThen fun _ => stable_readValue _

/-- And it takes at least one octet. -/
theorem progress_readEncoderInstruction : Progress readEncoderInstruction := by
  refine progress_peek fun b => ?_
  split
  · exact (progress_decodeInt 5).andThen .incomplete fun _ => stable_pure _
  · exact (progress_decodeInt 5).andThen .incomplete fun _ => stable_pure _
  · exact (progress_decodeInt 5).andThen .incomplete fun n =>
      stable_afterName b n
  · exact (progress_decodeInt 5).andThen .incomplete fun n =>
      stable_afterName b n
  · exact (progress_decodeInt 6).andThen .incomplete fun _ =>
      stable_readValue _

theorem map_decodeInt_eq (p : Nat) (make : Nat → DecoderInstruction) :
    (fun src => (decodeInt src p).map fun r => (make r.1, r.2)) =
      andThen (decodeInt · p) fun n src => .ok (make n, src) := by
  funext src
  simp only [andThen]
  cases decodeInt src p <;> rfl

/-- By its first octet, like the others. -/
theorem readDecoderInstruction_eq :
    readDecoderInstruction = peek .incomplete fun (b : UInt8) =>
      match b.toNat / 64 with
      | 0 => andThen (decodeInt · 6) fun n src =>
        .ok (.tableStateSynchronize n, src)
      | 1 => andThen (decodeInt · 6) fun n src =>
        .ok (.streamCancellation n, src)
      | _ => andThen (decodeInt · 7) fun n src => .ok (.headerAck n, src) := by
  funext src
  cases src with
  | nil => rfl
  | cons b src =>
    simp only [readDecoderInstruction, peek]
    generalize b.toNat / 64 = kind
    rcases kind with _ | _ | _
    · exact congrFun (map_decodeInt_eq 6 .tableStateSynchronize) _
    · exact congrFun (map_decodeInt_eq 6 .streamCancellation) _
    · exact congrFun (map_decodeInt_eq 7 .headerAck) _

/-- More octets do not change an instruction that was read. -/
theorem stable_readDecoderInstruction :
    Stable .incomplete readDecoderInstruction := by
  rw [readDecoderInstruction_eq]
  refine Stable.peek fun b => ?_
  split <;> exact (stable_decodeInt _).andThen fun _ => stable_pure _

/-- An instruction takes octets. -/
theorem progress_readDecoderInstruction : Progress readDecoderInstruction := by
  rw [readDecoderInstruction_eq]
  refine progress_peek fun b => ?_
  split <;> exact (progress_decodeInt _).andThen .incomplete fun _ =>
    stable_pure _

-- ==== decoder

/-- The decoder without its blocked streams. -/
def withoutBlocked (d : Decoder) : Decoder :=
  { d with blocked := [], numUnblocked := 0 }

@[simp] theorem withoutBlocked_table (d : Decoder) :
    (withoutBlocked d).table = d.table :=
  rfl

theorem ite_map {p : Prop} [Decidable p] {view : Decoder → Decoder}
    {x y x' y' : Except Error Decoder} (hx : x' = x.map view)
    (hy : y' = y.map view) :
    (if p then x' else y') = (if p then x else y).map view := by
  by_cases hp : p
  · rw [if_pos hp, if_pos hp, hx]
  · rw [if_neg hp, if_neg hp, hy]

theorem decodeValueAndInsert_withoutBlocked (d : Decoder) (name : Name)
    (soft : SoftErrors) (isHuff : Bool) (qstr : Bytes) :
    decodeValueAndInsert (withoutBlocked d) name soft isHuff qstr =
      (decodeValueAndInsert d name soft isHuff qstr).map withoutBlocked := by
  unfold decodeValueAndInsert
  cases decodeValue soft isHuff qstr with
  | error e => rfl
  | ok r => exact ite_map rfl rfl

/-- Instructions do not look at blocked streams. -/
theorem handleEncoderInstruction_withoutBlocked (d : Decoder)
    (i : EncoderInstruction) :
    handleEncoderInstruction (withoutBlocked d) i =
      (handleEncoderInstruction d i).map withoutBlocked := by
  cases i with
  | insertWithNameReference nameIsStatic nameIndex valueIsHuff value =>
    unfold handleEncoderInstruction insertWithNameReference
    cases nameIsStatic with
    | true =>
      simp only [if_true]
      cases resolveStaticAbs nameIndex with
      | none => rfl
      | some ref => exact decodeValueAndInsert_withoutBlocked ..
    | false =>
      simp only [Bool.false_eq_true, if_false]
      refine ite_map rfl ?_
      simp only [withoutBlocked_table]
      cases d.table.resolveDynamicAbs (d.table.totalInserts - 1 -
        nameIndex) with
      | none => rfl
      | some ref =>
        exact ite_map (decodeValueAndInsert_withoutBlocked ..)
          (decodeValueAndInsert_withoutBlocked ..)
  | insertWithoutNameReference nameIsHuff name valueIsHuff value =>
    simp only [handleEncoderInstruction, insertWithoutNameReference]
    split
    · rfl
    · cases lookupToken _ with
      | some token => exact decodeValueAndInsert_withoutBlocked ..
      | none => exact decodeValueAndInsert_withoutBlocked ..
  | duplicate index =>
    simp only [handleEncoderInstruction, duplicate, withoutBlocked_table]
    cases d.table.entries.reverse[index]? <;> rfl
  | dynamicTableSizeUpdate maxSize => exact ite_map rfl rfl

theorem decoderHandleInputAt_withoutBlocked (beyond : List Blocked)
    (d : Decoder) (src : Bytes) :
    (withoutBlocked (decoderHandleInputAt beyond d src).1,
      (decoderHandleInputAt beyond d src).2) =
      decoderLoop (withoutBlocked d) src := by
  have hblocked : withoutBlocked (removeUnblockedWith beyond d) =
      withoutBlocked d := by
    unfold removeUnblockedWith
    split <;> rfl
  rw [← hblocked, decoderHandleInputAt]
  refine .trans ?_ (feed_view handleEncoderInstruction_withoutBlocked _ _
    src).symm
  change _ = (withoutBlocked (decoderLoop _ src).1, (decoderLoop _ src).2)
  generalize decoderLoop (removeUnblockedWith beyond d) src = r
  obtain ⟨d', rest, err⟩ := r
  cases err <;> rfl

/-- So the input may come in pieces. -/
theorem decoderLoop_splits : Splits decoderLoop :=
  feed_splits stable_readEncoderInstruction progress_readEncoderInstruction rfl

/-- The decoder stream may be cut anywhere. -/
theorem encoderHandleInputAt_splits : Splits encoderHandleInputAt :=
  feed_splits stable_readDecoderInstruction progress_readDecoderInstruction rfl

-- ==== against the earlier handlers

/-- What a handler returns when the position does not matter. -/
def outcome {σ : Type} (r : σ × Bytes × Option Error) :
    σ × Except Error Bytes :=
  (r.1, match r.2.2 with
    | none => .ok r.2.1
    | some e => .error e)

theorem decodeValueAndInsert_not_incomplete (d : Decoder) (name : Name)
    (soft : SoftErrors) (isHuff : Bool) (qstr : Bytes) :
    decodeValueAndInsert d name soft isHuff qstr ≠ .error .incomplete := by
  unfold decodeValueAndInsert
  split
  · simp
  · simp only
    split <;> simp

/-- An instruction that has arrived is not incomplete. -/
theorem handleEncoderInstruction_not_incomplete (d : Decoder)
    (i : EncoderInstruction) :
    handleEncoderInstruction d i ≠ .error .incomplete := by
  cases i with
  | insertWithNameReference nameIsStatic nameIndex valueIsHuff value =>
    simp only [handleEncoderInstruction, insertWithNameReference]
    split
    · split
      · simp
      · exact decodeValueAndInsert_not_incomplete _ _ _ _ _
    · split
      · simp
      · split
        · simp
        · split <;> exact decodeValueAndInsert_not_incomplete _ _ _ _ _
  | insertWithoutNameReference nameIsHuff name valueIsHuff value =>
    simp only [handleEncoderInstruction, insertWithoutNameReference]
    split
    · simp
    · split <;> exact decodeValueAndInsert_not_incomplete _ _ _ _ _
  | duplicate index =>
    simp only [handleEncoderInstruction, duplicate]
    split <;> simp
  | dynamicTableSizeUpdate maxSize =>
    simp only [handleEncoderInstruction, dynamicTableSizeUpdate]
    split <;> simp

/-- An instruction that is read is carried out. -/
def carryOut (d : Decoder) :
    Except Error (EncoderInstruction × Bytes) → Except Error (Decoder × Bytes)
  | .error e => .error e
  | .ok (i, rest) => (handleEncoderInstruction d i).map fun d => (d, rest)

theorem carryOut_readValue (make : Bool → Bytes → EncoderInstruction)
    (d : Decoder) (src : Bytes) :
    carryOut d (readValue make src) = (match src with
      | [] => .error .incomplete
      | v :: _ => do
          let (valueLen, src) ← decodeInt src 7
          if valueLen ≤ src.length then
            let d ← handleEncoderInstruction d
                (make (v &&& 0x80 != 0) (src.take valueLen))
            return (d, src.drop valueLen)
          else .error .incomplete) := by
  cases src with
  | nil => rfl
  | cons v src =>
    simp only [readValue, peek, andThen]
    cases decodeInt (v :: src) 7 with
    | error e => rfl
    | ok r =>
      simp only [split]
      show _ = if r.1 ≤ r.2.length then _ else _
      by_cases hlen : r.1 ≤ r.2.length
      · rw [if_pos hlen, if_pos hlen]
        simp only [carryOut]
        cases handleEncoderInstruction d
          (make (v &&& 0x80 != 0) (r.2.take r.1)) <;> rfl
      · rw [if_neg hlen, if_neg hlen]
        rfl

theorem instructionWithoutNameReference_eq (d : Decoder) (b : UInt8)
    (src : Bytes) :
    instructionWithoutNameReference d b src =
      carryOut d (readInsertWithoutNameReference b src) := by
  simp only [instructionWithoutNameReference, readInsertWithoutNameReference,
    andThen]
  cases decodeInt src 5 with
  | error e => rfl
  | ok r =>
    simp only [split]
    by_cases hlen : r.1 ≤ r.2.length
    · rw [if_pos hlen]
      rw [carryOut_readValue]
      rfl
    · have hdrop : r.2.drop r.1 = [] := drop_eq_nil_of_le (by omega)
      rw [if_neg hlen]
      simp only [bind, Except.bind, hdrop]
      rfl

/-- `instruction` reads and carries out in one go. -/
theorem instruction_eq (d : Decoder) (src : Bytes) :
    instruction d src = carryOut d (readEncoderInstruction src) := by
  cases src with
  | nil => rfl
  | cons b src =>
    simp only [instruction, readEncoderInstruction, peek]
    generalize b.toNat / 32 = kind
    rcases kind with _ | _ | _ | _ | _
    · simp only [andThen]
      cases decodeInt (b :: src) 5 <;> rfl
    · simp only [andThen]
      cases decodeInt (b :: src) 5 <;> rfl
    · exact instructionWithoutNameReference_eq d b (b :: src)
    · exact instructionWithoutNameReference_eq d b (b :: src)
    · simp only [instructionWithNameReference, readInsertWithNameReference,
        andThen]
      cases decodeInt (b :: src) 6 with
      | error e => rfl
      | ok r =>
        rw [carryOut_readValue]
        rfl

/-- The earlier loop reads the same instructions. -/
theorem instructions_eq (n : Nat) (d : Decoder) (src : Bytes) :
    instructions n d src = outcome (feed .incomplete readEncoderInstruction
      handleEncoderInstruction n d src) := by
  induction n generalizing d src with
  | zero => rfl
  | succ n ih =>
    rw [instructions, feed]
    by_cases hnil : src = []
    · subst hnil
      rfl
    rw [if_neg hnil, instruction_eq]
    cases readEncoderInstruction src with
    | error e => cases e <;> rfl
    | ok r =>
      simp only [carryOut]
      have hdone := handleEncoderInstruction_not_incomplete d r.1
      cases hexec : handleEncoderInstruction d r.1 with
      | ok d' => exact ih d' r.2
      | error e =>
        cases e with
        | incomplete => exact absurd hexec hdone
        | qpackDecompressionFailed desc => rfl
        | qpackDecoderStream desc => rfl

/-- Where the list of blocked streams is not read past its end, the handler is
the one of `handleInput`, whatever is behind the list. -/
theorem handleInput_eq_some {d : Decoder} {src : Bytes}
    {r : Decoder × Except Error (Bytes × List Int)}
    (h : handleInput d src = some r) (beyond : List Blocked) :
    outcome (decoderHandleInputAt beyond d src) = (r.1, r.2.map Prod.fst) := by
  unfold handleInput at h
  cases hremove : removeUnblocked d with
  | none => simp [hremove] at h
  | some d₀ =>
    have hd₀ : removeUnblockedWith beyond d = d₀ := by
      unfold removeUnblocked at hremove
      unfold removeUnblockedWith
      by_cases hnum : d.numUnblocked ≠ 0
      · rw [if_pos hnum] at hremove ⊢
        simp only at hremove ⊢
        split at hremove
        · rename_i hinside
          cases hremove
          rw [drop_append_of_le_length (by omega), take_append_of_le_length (by
              rw [length_drop]
              omega)]
        · cases hremove
      · rw [if_neg hnum] at hremove ⊢
        exact some.inj hremove
    rw [hremove, map_some] at h
    cases h
    rw [decoderHandleInputAt, hd₀, instructions_eq, decoderLoop]
    generalize feed .incomplete readEncoderInstruction
      handleEncoderInstruction src.length d₀ src = loop
    obtain ⟨d', rest, err⟩ := loop
    cases err <;> rfl

/-- The same for the other stream. -/
theorem encoderHandleInput_eq (q : Encoder) (src : Bytes) :
    encoderHandleInput q src = outcome (encoderHandleInputAt q src) := by
  unfold encoderHandleInput encoderHandleInputAt
  generalize src.length = n
  induction n generalizing q src with
  | zero => rfl
  | succ n ih =>
    rw [encoderInstructions, feed]
    by_cases hnil : src = []
    · subst hnil
      rfl
    rw [if_neg hnil]
    cases readDecoderInstruction src with
    | error e => cases e <;> rfl
    | ok r =>
      simp only
      cases handleDecoderInstruction q r.1 with
      | ok q' => exact ih q' r.2
      | error e => rfl

-- ==== the streams

/-- What the input leaves of a decoder. -/
structure SameTable (d d' : Decoder) : Prop where
  table : d.table = d'.table
  insertCount : d.insertCount = d'.insertCount
  totalInserts : d.totalInserts = d'.totalInserts

theorem sameTable_of_withoutBlocked {d d' : Decoder}
    (h : withoutBlocked d = withoutBlocked d') : SameTable d d' := by
  have htable := congrArg Decoder.table h
  have hcount := congrArg Decoder.insertCount h
  have htotal := congrArg Decoder.totalInserts h
  exact ⟨htable, hcount, htotal⟩

/-- However the encoder stream and the decoder stream are cut, the decoder and
the encoder end as if all had arrived at once: with the same table and
counters, or the same list of sections and counters, with as much of the
stream taken, and with the same error. Of an instruction that has not arrived
in full nothing is taken and nothing is done. -/
theorem streams_do_not_depend_on_pieces :
    (∀ (d : Decoder) (pieces : List (List Blocked × Bytes))
      (beyond : List Blocked),
      let r := pieces.foldl encoderStreamOnReceive ⟨d, [], 0, none⟩
      let src := (pieces.map Prod.snd).flatten
      let whole := decoderHandleInputAt beyond d src
      SameTable r.state whole.1 ∧ r.error = whole.2.2 ∧
        r.consumed = src.length - whole.2.1.length) ∧
    (∀ (q : Encoder) (pieces : List (Unit × Bytes)),
      let r := pieces.foldl decoderStreamOnReceive ⟨q, [], 0, none⟩
      let src := (pieces.map Prod.snd).flatten
      let whole := encoderHandleInputAt q src
      r.state = whole.1 ∧ r.error = whole.2.2 ∧
        r.consumed = src.length - whole.2.1.length) ∧
    (∀ (d : Decoder) (beyond : List Blocked) (src whole : Bytes)
      (i : EncoderInstruction),
      readEncoderInstruction whole = .ok (i, []) → src <+: whole →
      src ≠ whole → SameTable (decoderHandleInputAt beyond d src).1 d ∧
        (decoderHandleInputAt beyond d src).2 = (src, none)) ∧
    (∀ (q : Encoder) (src whole : Bytes) (i : DecoderInstruction),
      readDecoderInstruction whole = .ok (i, []) → src <+: whole →
      src ≠ whole → encoderHandleInputAt q src = (q, src, none)) := by
  refine ⟨?_, ?_, ?_, ?_⟩
  · intro d pieces beyond r src whole
    obtain ⟨hstate, hconsumed, herror⟩ :=
      Splits.receive decoderHandleInputAt_withoutBlocked
      decoderLoop_splits (fun _ _ =>
        feed_length_le progress_readEncoderInstruction _ _ _)
      (fun _ => rfl) d pieces
    rw [← decoderHandleInputAt_withoutBlocked
      beyond] at hstate hconsumed herror
    exact ⟨sameTable_of_withoutBlocked hstate, herror, hconsumed⟩
  · intro q pieces r src whole
    obtain ⟨hstate, hconsumed, herror⟩ : Receiver.Agrees id _ _ _ :=
      Splits.receive (fun _ _ _ => rfl) encoderHandleInputAt_splits
        (fun _ _ => feed_length_le progress_readDecoderInstruction _ _ _)
        (fun _ => rfl) q pieces
    exact ⟨hstate, herror, hconsumed⟩
  · intro d beyond src whole i hwhole hbegin hne
    have hloop : decoderLoop (withoutBlocked d) src =
        (withoutBlocked d, src, none) :=
      feed_truncated stable_readEncoderInstruction hwhole hbegin hne _ _
    rw [← decoderHandleInputAt_withoutBlocked beyond] at hloop
    obtain ⟨hstate, hrest⟩ := Prod.mk.inj hloop
    exact ⟨sameTable_of_withoutBlocked hstate, hrest⟩
  · intro q src whole i hwhole hbegin hne
    exact feed_truncated stable_readDecoderInstruction hwhole hbegin hne _ _

/-- The insertion of `a: b` without its last octet. -/
theorem streams_do_not_depend_on_pieces_insert :
    readEncoderInstruction [0x41, 97, 1, 98] =
        .ok (.insertWithoutNameReference false [97] false [98], []) ∧
      (decoderHandleInputAt [] (.create 4096 16) [0x41, 97, 1]).2 =
        ([0x41, 97, 1], none) :=
  ⟨by decide, (streams_do_not_depend_on_pieces.2.2.1 (.create 4096 16) []
    [0x41, 97, 1] [0x41, 97, 1, 98]
    (.insertWithoutNameReference false [97] false [98]) (by decide)
    ⟨[98], rfl⟩ (by decide)).2⟩

end H2o.Qpack
