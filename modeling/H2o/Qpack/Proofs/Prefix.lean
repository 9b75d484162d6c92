/-
The prefix of a field section: the Required Insert Count and the base index.

`Prefix` is a prefix that is well formed, and the context it stands for; what
`parse_decode_context` does is said for it and for the others. The Required
Insert Count is that of RFC 9204 §4.5.1.1 (`rfcReqInsertCount`) for the
encodings that an encoder can send; most larger ones are not rejected
(`Agreeing`).
-/
import H2o.Qpack.Proofs.DecoderInv
import H2o.Qpack.Proofs.Wire

namespace H2o.Qpack

open Hpack Option

variable {d : Decoder} {encoded ref : Nat} {src rest : Bytes} {ctx : DecodeCtx}

-- ==== Required Insert Count

/-- The algorithm of RFC 9204 §4.5.1.1. -/
def rfcReqInsertCount (maxEntries totalInserts encoded : Nat) : Option Nat :=
  let fullRange := 2 * maxEntries
  if encoded = 0 then some 0
  else if encoded > fullRange then none
  else
    let maxValue := totalInserts + maxEntries
    let maxWrapped := maxValue / fullRange * fullRange
    let req := maxWrapped + encoded - 1
    if req > maxValue then
      if req ≤ fullRange then none else nonzero (req - fullRange)
    else nonzero req
where
  nonzero (req : Nat) : Option Nat := if req = 0 then none else some req

theorem rfcReqInsertCount.nonzero_eq_some {req r : Nat} :
    nonzero req = some r ↔ 0 < r ∧ req = r := by
  unfold nonzero
  split
  next h => exact iff_of_false nofun (by omega)
  next h =>
    rw [some.injEq]
    omega

/-- The value is the only one in the window with this remainder. -/
theorem rfcReqInsertCount_eq_some_iff {maxEntries totalInserts r : Nat}
    (hpos : 0 < encoded) :
    rfcReqInsertCount maxEntries totalInserts encoded = some r ↔
      0 < r ∧ totalInserts < r + maxEntries ∧ r ≤ totalInserts + maxEntries ∧
        r % (2 * maxEntries) = encoded - 1 := by
  unfold rfcReqInsertCount
  by_cases hempty : maxEntries = 0
  · rw [if_neg (by omega), if_pos (by omega)]
    exact iff_of_false nofun (by omega)
  rw [if_neg (by omega)]
  split
  next hgt =>
    refine iff_of_false nofun fun ⟨_, _, _, hrem⟩ => ?_
    have hlt := Nat.mod_lt r (show 2 * maxEntries > 0 by omega)
    omega
  simp only
  generalize hfull : 2 * maxEntries = fullRange at *
  generalize hvalue : totalInserts + maxEntries = maxValue
  have hmod := Nat.div_add_mod' maxValue fullRange
  have hlt := Nat.mod_lt maxValue (show fullRange > 0 by omega)
  constructor
  · intro h
    generalize maxValue / fullRange = q at hmod h
    have hrem : ∀ k, (k * fullRange + (encoded - 1)) % fullRange =
        encoded - 1 := fun k => by
      rw [Nat.mul_add_mod_self_right, Nat.mod_eq_of_lt (by omega)]
    split at h
    next hgt =>
      split at h
      · cases h
      next hbig =>
        obtain ⟨hr, rfl⟩ := rfcReqInsertCount.nonzero_eq_some.1 h
        cases q with
        | zero => omega
        | succ k =>
          -- one range less
          rw [Nat.succ_mul] at *
          rw [show k * fullRange + fullRange + encoded - 1 - fullRange =
            k * fullRange + (encoded - 1) by omega] at *
          exact ⟨hr, by omega, by omega, hrem k⟩
    next hgt =>
      obtain ⟨hr, rfl⟩ := rfcReqInsertCount.nonzero_eq_some.1 h
      refine ⟨hr, by omega, by omega, ?_⟩
      rw [Nat.add_sub_assoc (by omega)]
      exact hrem _
  · rintro ⟨hr, hlo, hhi, hrem⟩
    have hr' := Nat.div_add_mod' r fullRange
    -- the value is in the last range or in the one before
    have hq₁ : r / fullRange ≤ maxValue / fullRange := Nat.div_le_div_right hhi
    have hq₂ : maxValue / fullRange ≤ r / fullRange + 1 := by
      rw [← Nat.add_div_right _ (by omega)]
      exact Nat.div_le_div_right (by omega)
    obtain hq | hq : maxValue / fullRange = r / fullRange ∨
      maxValue / fullRange = r / fullRange + 1 := by omega
    · rw [hq] at hmod ⊢
      rw [if_neg (by omega)]
      exact rfcReqInsertCount.nonzero_eq_some.2 ⟨hr, by omega⟩
    · rw [hq, Nat.succ_mul] at hmod ⊢
      rw [if_pos (by omega), if_neg (by omega)]
      exact rfcReqInsertCount.nonzero_eq_some.2 ⟨hr, by omega⟩

theorem checkReqInsertCount_eq_some {req r : Nat} :
    decodeReqInsertCount.checkReqInsertCount req = some r ↔
      (0 < r ∧ req = r) ∧ r ≤ quicintMax := by
  unfold decodeReqInsertCount.checkReqInsertCount
  split
  next h => exact iff_of_false nofun (by omega)
  next h =>
    rw [Int.toNat_natCast, some.injEq]
    omega

/-- The source computes the same for encodings up to the full range, and then
drops what is too large for a stream. -/
theorem decodeReqInsertCount_of_le {r : Nat} (hmax : d.maxEntries < 2 ^ 32)
    (htotal : d.totalInserts < 2 ^ 62)
    (hle : d.maxEntries ≠ 0 → encoded ≤ 2 * d.maxEntries) :
    decodeReqInsertCount d encoded = some r ↔
      rfcReqInsertCount d.maxEntries d.totalInserts encoded = some r ∧
        r ≤ quicintMax := by
  by_cases hzero : encoded = 0
  · simp only [decodeReqInsertCount, rfcReqInsertCount, hzero, if_true]
    exact ⟨fun h => ⟨h, Option.some.inj h ▸ Nat.zero_le _⟩, And.left⟩
  by_cases hempty : d.maxEntries = 0
  · have hpos := Nat.pos_of_ne_zero hzero
    simp [decodeReqInsertCount, rfcReqInsertCount, hzero, hempty, hpos]
  have hround := Nat.div_mul_le_self (d.totalInserts + d.maxEntries)
    (2 * d.maxEntries)
  rw [rfcReqInsertCount, if_neg hzero, if_neg (by omega), decodeReqInsertCount,
    if_pos (by omega), if_neg hempty]
  simp only
  generalize (d.totalInserts + d.maxEntries) / (2 * d.maxEntries) *
    (2 * d.maxEntries) = rounded at *
  have hreq : Int.bmod (encoded + rounded - 1) (2 ^ 64) =
      ((rounded + encoded - 1 : Nat) : Int) := by
    rw [bmod_of_lt (by omega) (by omega)]
    omega
  have hsmall : ((rounded + encoded - 1 : Nat) : Int) % 2 ^ 64 =
      (rounded + encoded - 1 : Nat) := Int.emod_eq_of_lt (by omega) (by omega)
  rw [hreq, hsmall]
  simp only [gt_iff_lt, Nat.cast_lt, Nat.cast_le]
  split_ifs with hgt hrange
  · simp
  · rw [← Nat.cast_sub (by omega), checkReqInsertCount_eq_some,
      rfcReqInsertCount.nonzero_eq_some]
  · rw [checkReqInsertCount_eq_some, rfcReqInsertCount.nonzero_eq_some]

/-- As long as no count is too large for a stream it is the same. -/
theorem decodeReqInsertCount_eq_rfc (hmax : d.maxEntries < 2 ^ 32)
    (htotal : d.totalInserts + d.maxEntries < 2 ^ 62)
    (hle : d.maxEntries ≠ 0 → encoded ≤ 2 * d.maxEntries) :
    decodeReqInsertCount d encoded =
      rfcReqInsertCount d.maxEntries d.totalInserts encoded := by
  refine Option.ext fun r => ?_
  rw [decodeReqInsertCount_of_le hmax (by omega) hle, and_iff_left_iff_imp]
  intro hr
  rw [quicintMax]
  rcases Nat.eq_zero_or_pos encoded with rfl | hpos
  · cases hr
    exact Nat.zero_le _
  · obtain ⟨-, -, hhi, -⟩ := (rfcReqInsertCount_eq_some_iff hpos).1 hr
    omega

/-- The count that comes of an encoding beyond the full range. -/
def beyondRange (maxEntries totalInserts encoded : Nat) : Nat :=
  (totalInserts + maxEntries) / (2 * maxEntries) * (2 * maxEntries) +
    (encoded - 1 - 2 * maxEntries)

/-- Larger encodings are taken as counts beyond the window, unless that is zero
or too large for a stream. -/
theorem decodeReqInsertCount_of_gt (hmax : d.maxEntries < 2 ^ 32)
    (htotal : d.totalInserts < 2 ^ 62) (hencoded : encoded ≤ int64Max)
    (hempty : d.maxEntries ≠ 0) (hgt : 2 * d.maxEntries < encoded) :
    decodeReqInsertCount d encoded =
      decodeReqInsertCount.checkReqInsertCount
        (beyondRange d.maxEntries d.totalInserts encoded : Nat) := by
  have hround := Nat.div_mul_le_self (d.totalInserts + d.maxEntries)
    (2 * d.maxEntries)
  have hlast := Nat.lt_div_mul_add (a := d.totalInserts + d.maxEntries)
    (show 0 < 2 * d.maxEntries by omega)
  rw [decodeReqInsertCount, if_pos (by omega), if_neg hempty, beyondRange]
  simp only
  generalize (d.totalInserts + d.maxEntries) / (2 * d.maxEntries) *
    (2 * d.maxEntries) = rounded at *
  rw [int64Max] at hencoded
  unfold decodeReqInsertCount.checkReqInsertCount quicintMax
  by_cases hwrap : encoded + rounded - 1 < 2 ^ 63
  · rw [bmod_of_lt (by omega) (by omega),
      Int.emod_eq_of_lt (by omega) (by omega),
      if_pos (by omega)]
    split
    next hle => rw [if_pos (by omega)]
    next hle =>
      congr 1
      · rw [eq_iff_iff]
        omega
      · congr 1
        omega
  · -- the sum is negative as an `int64_t`, and above all as a `uint64_t`
    have hreq : Int.bmod (encoded + rounded - 1) (2 ^ 64) =
        (encoded + rounded - 1 : Int) - 2 ^ 64 := by
      rw [← Int.sub_bmod_right]
      exact Int.bmod_eq_of_le (by omega) (by omega)
    rw [hreq, Int.sub_emod_right, Int.emod_eq_of_lt (by omega) (by omega),
      if_pos (by omega), if_pos (by omega), if_pos (by omega)]

theorem decodeReqInsertCount_le
    (h : decodeReqInsertCount d encoded = some ref) : ref ≤ quicintMax := by
  have hcheck : ∀ req : Int, decodeReqInsertCount.checkReqInsertCount req =
      some ref →
        ref ≤ quicintMax := by
    intro req hreq
    unfold decodeReqInsertCount.checkReqInsertCount at hreq
    split at hreq
    · cases hreq
    · cases hreq
      omega
  unfold decodeReqInsertCount at h
  simp only at h
  repeat' split at h
  · cases h
  · cases h
  · exact hcheck _ h
  · exact hcheck _ h
  · cases h
    exact Nat.zero_le _

-- ==== the context

/-- A prefix that is well formed, and its context. -/
def Prefix (d : Decoder) (src : Bytes) (ctx : DecodeCtx) (rest : Bytes) :
    Prop :=
  ∃ encoded b tl delta, decodeInt src 8 = .ok (encoded, b :: tl) ∧
    decodeReqInsertCount d encoded = some ctx.reqInsertCount ∧
    decodeInt (b :: tl) 7 = .ok (delta, rest) ∧ delta ≤ quicintMax ∧
    (if b &&& 0x80 = 0 then (ctx.reqInsertCount : Int) + delta
      else ctx.reqInsertCount - delta - 1) = ctx.baseIndex

/-- The error of a section that is refused. -/
def refused : Except Error (DecodeCtx × Bytes) :=
  .error (.qpackDecompressionFailed none)

theorem Prefix.parse_eq (h : Prefix d src ctx rest) (streamId : Int) :
    parseDecodeContext d streamId src =
      if ctx.reqInsertCount ≥ d.table.totalInserts then
        if d.blocked.length + 1 ≥ d.maxBlocked then (d, refused)
        else (decoderLinkBlocked d streamId ctx.reqInsertCount,
          .error .incomplete)
      else (d, .ok (ctx, rest)) := by
  obtain ⟨encoded, b, tl, delta, hint, hric, hdec, hdelta, hbase⟩ := h
  unfold parseDecodeContext
  simp only [hint, hric, hdec, hbase]
  rw [if_neg (by omega)]
  rfl

theorem parseDecodeContext_eq (d : Decoder) (streamId : Int) (src : Bytes) :
    (∃ ctx rest, Prefix d src ctx rest) ∨ parseDecodeContext d streamId src =
      (d, refused) := by
  unfold parseDecodeContext
  cases hint : decodeInt src 8 with
  | error e => exact .inr rfl
  | ok r =>
    obtain ⟨encoded, src⟩ := r
    simp only
    cases hric : decodeReqInsertCount d encoded with
    | none => exact .inr rfl
    | some ref =>
      cases src with
      | nil => exact .inr rfl
      | cons b src =>
        cases hdec : decodeInt (b :: src) 7 with
        | error e => exact .inr rfl
        | ok r =>
          obtain ⟨delta, rest⟩ := r
          simp only
          generalize hbase : (if b &&& 0x80 = 0 then (ref : Int) + delta
            else ref - delta - 1) = base
          split
          · exact .inr rfl
          next hok =>
            refine .inl ⟨⟨ref, base.toNat⟩, rest, encoded, b, src, delta, hint,
              hric, hdec, by omega, hbase.trans ?_⟩
            exact (Int.toNat_of_nonneg (by omega)).symm

/-- A context that is returned is that of a well-formed prefix, and none of its
references is waited for. -/
theorem prefix_of_parse {streamId : Int}
    (h : (parseDecodeContext d streamId src).2 = .ok (ctx, rest)) :
    Prefix d src ctx rest ∧ ctx.reqInsertCount < d.table.totalInserts := by
  rcases parseDecodeContext_eq d streamId src with ⟨ctx', rest', hp⟩ | hr
  · rw [hp.parse_eq] at h
    split at h
    · split at h <;> cases h
    next hlt =>
      cases h
      exact ⟨hp, Nat.lt_of_not_le hlt⟩
  · rw [hr] at h
    cases h

/-- No count of the algorithm is too large for a stream, and an encoding that
it rejects as too large stands for no count or for one that is. -/
structure Agreeing (maxEntries totalInserts encoded : Nat) : Prop where
  stream : ∀ r ∈ rfcReqInsertCount maxEntries totalInserts encoded,
    r ≤ quicintMax
  range : maxEntries ≠ 0 → 2 * maxEntries < encoded →
    beyondRange maxEntries totalInserts encoded = 0 ∨
      quicintMax < beyondRange maxEntries totalInserts encoded

/-- The count is that of the algorithm exactly there. -/
theorem decodeReqInsertCount_eq_rfc_iff (hmax : d.maxEntries < 2 ^ 32)
    (htotal : d.totalInserts < 2 ^ 62) (hencoded : encoded ≤ int64Max) :
    decodeReqInsertCount d encoded =
        rfcReqInsertCount d.maxEntries d.totalInserts encoded ↔
      Agreeing d.maxEntries d.totalInserts encoded := by
  by_cases hle : d.maxEntries ≠ 0 → encoded ≤ 2 * d.maxEntries
  · rw [Option.ext_iff]
    simp only [decodeReqInsertCount_of_le hmax htotal hle,
      and_iff_left_iff_imp]
    exact ⟨fun h => ⟨h, fun hempty hgt => absurd (hle hempty) (by omega)⟩,
      fun h => h.stream⟩
  push Not at hle
  obtain ⟨hempty, hgt⟩ := hle
  have hrfc : rfcReqInsertCount d.maxEntries d.totalInserts encoded =
      none := by
    rw [rfcReqInsertCount, if_neg (by omega), if_pos hgt]
  rw [decodeReqInsertCount_of_gt hmax htotal hencoded hempty hgt, hrfc,
    Option.eq_none_iff_forall_ne_some]
  simp only [ne_eq, checkReqInsertCount_eq_some]
  constructor
  · intro h
    have hcount := h (beyondRange d.maxEntries d.totalInserts encoded)
    exact ⟨by simp [hrfc], fun _ _ => by omega⟩
  · intro h r
    have hcount := h.range hempty hgt
    omega

/-- The count is that of the algorithm, that is the one value in the window
around the inserts that has this remainder, exactly where the two agree on what
is too large. The base index of a section always fits in 64 bits. -/
theorem decodeReqInsertCount_agrees_iff (d : Decoder) (encoded : Nat)
    (hmax : d.maxEntries < 2 ^ 32) (htotal : d.totalInserts < 2 ^ 62)
    (hencoded : encoded ≤ int64Max) :
    (decodeReqInsertCount d encoded =
        rfcReqInsertCount d.maxEntries d.totalInserts encoded ∧
      (0 < encoded → ∀ r, decodeReqInsertCount d encoded = some r ↔
        0 < r ∧ d.totalInserts < r + d.maxEntries ∧
          r ≤ d.totalInserts + d.maxEntries ∧
          r % (2 * d.maxEntries) = encoded - 1) ↔
      Agreeing d.maxEntries d.totalInserts encoded) ∧
    ∀ streamId src ctx rest,
      (parseDecodeContext d streamId src).2 = .ok (ctx, rest) →
        ctx.baseIndex ≤ int64Max := by
  refine ⟨?_, fun streamId src ctx rest h => ?_⟩
  · rw [← decodeReqInsertCount_eq_rfc_iff hmax htotal hencoded,
      and_iff_left_iff_imp]
    intro heq hpos r
    rw [heq, rfcReqInsertCount_eq_some_iff hpos]
  · obtain ⟨⟨_, b, _, delta, -, hric, -, hdelta, hbase⟩, -⟩ :=
      prefix_of_parse h
    have href := decodeReqInsertCount_le hric
    simp only [int64Max, quicintMax] at *
    split at hbase <;> omega

/-- With room for two entries, an encoding in the range and the first one
beyond it. -/
theorem decodeReqInsertCount_agrees_two :
    decodeReqInsertCount (.create 64 1) 2 = rfcReqInsertCount 2 0 2 ∧
      decodeReqInsertCount (.create 64 1) 5 = rfcReqInsertCount 2 0 5 :=
  ⟨((decodeReqInsertCount_agrees_iff (.create 64 1) 2 (by decide) (by decide)
      (by decide)).1.2 ⟨by decide, by decide⟩).1,
    ((decodeReqInsertCount_agrees_iff (.create 64 1) 5 (by decide) (by decide)
      (by decide)).1.2 ⟨by decide, by decide⟩).1⟩

/-- With room for two entries no encoding is larger than four. Ten is taken as
five inserts, which is outside of the window, and the section waits for
them. -/
theorem decodeReqInsertCount_beyond_range :
    decodeReqInsertCount (.create 64 4) 10 = some 5 ∧
      rfcReqInsertCount 2 0 10 = none ∧
        (parseDecodeContext (.create 64 4) 0 [10, 0]).2 =
        .error .incomplete := by
  refine ⟨?_, ?_, ?_⟩ <;> rfl

end H2o.Qpack
