/-
Removing a section from the in-flight list.

The entry is taken out by a `memmove` of the memory behind it, whose length is
the number of entries and not of bytes. `EvictExact` says when this leaves the
right list: from the first byte that is not moved on, the memory repeats itself
entry by entry. It holds of the last entry, and of one that all entries behind
it are equal to.
-/
import H2o.Qpack.Proofs.Input

namespace H2o.Qpack

open List

variable {l : List Inflight}

-- ==== layout

theorem ofLe64_le64 (v : Int64) : ofLe64 (le64 v) = v := by
  have hlt := v.toUInt64.toNat_lt
  have hsum : (le64 v).foldr (fun x acc => x.toNat + 256 * acc) 0 =
      v.toUInt64.toNat := by
    simp only [le64, range_succ, range_zero, nil_append, map_cons, map_nil,
      cons_append, foldr_cons, foldr_nil, UInt8.toNat_ofNat']
    omega
  rw [ofLe64, hsum]
  simp

@[simp] theorem length_le64 (v : Int64) : (le64 v).length = 8 := by
  simp [le64]

@[simp] theorem Inflight.length_toBytes (e : Inflight) :
    e.toBytes.length = inflightSize := by
  simp [Inflight.toBytes, inflightSize]

theorem Inflight.ofBytes_toBytes (e : Inflight) :
    Inflight.ofBytes e.toBytes = e := by
  obtain ⟨sid, ref, blk⟩ := e
  have h₁ : (Inflight.toBytes ⟨sid, ref, blk⟩).take 8 = le64 sid := by
    rw [Inflight.toBytes, append_assoc, take_left' (length_le64 sid)]
  have h₂ : ((Inflight.toBytes ⟨sid, ref, blk⟩).drop 8).take 8 = le64 ref := by
    rw [Inflight.toBytes, append_assoc, drop_left' (length_le64 sid),
      take_left' (length_le64 ref)]
  have h₃ : (Inflight.toBytes ⟨sid, ref, blk⟩).drop 16 =
      blk :: replicate 7 0 := by
    rw [Inflight.toBytes, drop_left' (by simp)]
  rw [Inflight.ofBytes, h₁, h₂, ofLe64_le64, ofLe64_le64]
  rfl

@[simp] theorem length_flatMap_toBytes (l : List Inflight) :
    (l.flatMap Inflight.toBytes).length = inflightSize * l.length := by
  induction l with
  | nil => rfl
  | cons e l ih =>
    rw [flatMap_cons, length_append, ih, e.length_toBytes, length_cons]
    ring

/-- The list that memory holds is the one it was written from. -/
theorem inflightOfBytes_flatMap (l : List Inflight) (rest : Bytes) :
    inflightOfBytes l.length (l.flatMap Inflight.toBytes ++ rest) = l := by
  induction l with
  | nil => rfl
  | cons e l ih =>
    rw [length_cons, inflightOfBytes, flatMap_cons, append_assoc,
      take_left' e.length_toBytes, drop_left' e.length_toBytes, ih,
      e.ofBytes_toBytes]

-- ==== eviction

/-- From the first byte that is not moved on, the memory from entry `i` on
repeats itself entry by entry. -/
def EvictExact (l : List Inflight) (i : Nat) : Prop :=
  ∀ p < inflightSize * (l.length - 1 - i), l.length - 1 - i ≤ p →
    ((l.drop i).flatMap Inflight.toBytes)[p]? =
      ((l.drop i).flatMap Inflight.toBytes)[p + inflightSize]?

instance (l : List Inflight) (i : Nat) : Decidable (EvictExact l i) := by
  unfold EvictExact
  infer_instance

/-- Moving `m` bytes of what follows `x` over it, where `x` and what follows
repeat from byte `m` on, is removing `x`. -/
theorem memmove_eq {a x c : Bytes} {m : Nat} (hm : m ≤ c.length)
    (h : ∀ p < c.length, m ≤ p →
      (x ++ c)[p]? = (x ++ c)[p + x.length]?) :
    ∃ rest, memmove (a ++ (x ++ c)) a.length (a.length + x.length) m =
      a ++ c ++ rest := by
  have htail : ((x ++ c).drop m).take (c.length - m) = c.drop m := by
    refine ext_getElem? fun q => ?_
    rw [getElem?_take, getElem?_drop, getElem?_drop]
    split
    next hq =>
      rw [h (m + q) (by omega) (by omega), getElem?_append_right (by omega),
        Nat.add_sub_cancel]
    next hq => rw [getElem?_eq_none (by omega)]
  refine ⟨(x ++ c).drop c.length, ?_⟩
  have hrest : (x ++ c).drop m = c.drop m ++ (x ++ c).drop c.length := by
    calc (x ++ c).drop m = ((x ++ c).drop m).take (c.length - m) ++
            ((x ++ c).drop m).drop (c.length - m) :=
          (take_append_drop _ _).symm
      _ = c.drop m ++ (x ++ c).drop c.length := by
          rw [htail, drop_drop, Nat.add_sub_of_le hm]
  have hsrc : (a ++ (x ++ c)).drop (a.length + x.length) = c := by
    rw [← drop_drop, drop_left, drop_left]
  have hdst : (a ++ (x ++ c)).drop (a.length + m) = (x ++ c).drop m := by
    rw [← drop_drop, drop_left]
  rw [memmove, take_left, hsrc, hdst, hrest, append_assoc,
    ← append_assoc (c.take m), take_append_drop, append_assoc]

/-- Under `EvictExact` the entry is removed, and nothing else. -/
theorem inflightEvicted_eq {i : Nat} (hi : i < l.length)
    (h : EvictExact l i) : inflightEvicted l i = l.eraseIdx i := by
  have herase : l.eraseIdx i = l.take i ++ l.drop (i + 1) :=
    eraseIdx_eq_take_drop_succ l i
  unfold inflightEvicted
  simp only
  split
  next hz =>
    obtain rfl : i = 0 := by omega
    rw [herase, drop_eq_nil_of_le (by omega)]
    rfl
  next hz =>
    split
    next hlt =>
      have hsplit : l = l.take i ++ (l[i] :: l.drop (i + 1)) := by
        rw [getElem_cons_drop, take_append_drop]
      have hdrop : l.drop i = l[i] :: l.drop (i + 1) := drop_eq_getElem_cons hi
      have hmem : l.flatMap Inflight.toBytes =
          (l.take i).flatMap Inflight.toBytes ++ (l[i].toBytes ++
            (l.drop (i + 1)).flatMap Inflight.toBytes) := by
        conv_lhs => rw [hsplit]
        rw [flatMap_append, flatMap_cons]
      have htake : inflightSize * i =
          ((l.take i).flatMap Inflight.toBytes).length := by
        rw [length_flatMap_toBytes, length_take, min_eq_left hi.le]
      have hx : inflightSize * (i + 1) =
          ((l.take i).flatMap Inflight.toBytes).length +
            l[i].toBytes.length := by
        rw [← htake, Inflight.length_toBytes, Nat.mul_succ]
      have hc : ((l.drop (i + 1)).flatMap Inflight.toBytes).length =
          inflightSize * (l.length - 1 - i) := by
        rw [length_flatMap_toBytes, length_drop]
        congr 1
        omega
      have hsize : l.length - 1 = (l.take i ++ l.drop (i + 1)).length := by
        rw [length_append, length_take, length_drop]
        omega
      unfold EvictExact at h
      rw [hdrop, flatMap_cons, ← hc] at h
      obtain ⟨rest, hrest⟩ :=
        memmove_eq (a := (l.take i).flatMap Inflight.toBytes)
        (by rw [hc]; exact Nat.le_mul_of_pos_left _ (by decide)) h
      rw [hmem, htake, hx, hrest, ← flatMap_append, hsize,
        inflightOfBytes_flatMap, herase]
    next hge =>
      obtain rfl : i = l.length - 1 := by omega
      rw [herase, drop_eq_nil_of_le (by omega), append_nil]

-- ==== acknowledge and cancel

/-- The number of entries that may block their stream. -/
def blockedCount (l : List Inflight) : Nat :=
  l.countP fun e => e.isBlocking ≠ 0

/-- The counter is that number, and within its bound. -/
structure CountInv (q : Encoder) : Prop where
  count : q.numBlocked.toNat = blockedCount q.inflight
  le : q.numBlocked ≤ q.maxBlocked

theorem blockedCount_eraseIdx {i : Nat} (hi : i < l.length) :
    blockedCount l = blockedCount (l.eraseIdx i) +
      if l[i].isBlocking ≠ 0 then 1 else 0 := by
  have hsplit : l = l.take i ++ (l[i] :: l.drop (i + 1)) := by
    rw [getElem_cons_drop, take_append_drop]
  rw [eraseIdx_eq_take_drop_succ]
  conv_lhs => rw [hsplit]
  simp only [blockedCount, countP_append, countP_cons, decide_eq_true_eq]
  omega

/-- Of the encoder only the ledger and its counter change. -/
def SameEncoder (q q' : Encoder) : Prop :=
  q' = { q with numBlocked := q'.numBlocked, inflight := q'.inflight }

theorem evictInflightByIndex_spec {q : Encoder} {i : Nat}
    (hi : i < q.inflight.length) (h : EvictExact q.inflight i)
    (hcount : CountInv q) :
    (evictInflightByIndex q i).inflight = q.inflight.eraseIdx i ∧
      CountInv (evictInflightByIndex q i) ∧
      SameEncoder q (evictInflightByIndex q i) := by
  have hlist : (evictInflightByIndex q i).inflight = q.inflight.eraseIdx i :=
    inflightEvicted_eq hi h
  have hsum := blockedCount_eraseIdx hi
  have hc := hcount.count
  have hle := UInt16.le_iff_toNat_le.mp hcount.le
  refine ⟨hlist, ⟨?_, ?_⟩, rfl⟩
  · rw [hlist]
    simp only [evictInflightByIndex, getD_eq_getElem _ _ hi]
    split
    next hb =>
      rw [if_pos hb] at hsum
      rw [UInt16.toNat_sub_of_le _ _ (by
        rw [UInt16.le_iff_toNat_le]
        show 1 ≤ _
        omega)]
      show q.numBlocked.toNat - 1 = _
      omega
    next hb =>
      rw [if_neg hb] at hsum
      omega
  · simp only [evictInflightByIndex, getD_eq_getElem _ _ hi]
    split
    next hb =>
      rw [if_pos hb] at hsum
      rw [UInt16.le_iff_toNat_le, UInt16.toNat_sub_of_le _ _ (by
        rw [UInt16.le_iff_toNat_le]
        show 1 ≤ _
        omega)]
      omega
    next => exact hcount.le

/-- Every removal of `handle_stream_cancellation` is exact. -/
def CancelExact (streamId : Int64) : Nat → Nat → List Inflight → Prop
  | 0, _, _ => True
  | n + 1, index, l =>
    if index < l.length then
      if (l.getD index ⟨0, 0, 0⟩).streamId = streamId then
        EvictExact l index ∧ CancelExact streamId n index (l.eraseIdx index)
      else CancelExact streamId n (index + 1) l
    else True

instance (streamId : Int64) (n index : Nat) (l : List Inflight) :
    Decidable (CancelExact streamId n index l) := by
  induction n generalizing index l with
  | zero => exact .isTrue trivial
  | succ n ih =>
    unfold CancelExact
    infer_instance

theorem SameEncoder.trans {q q₁ q₂ : Encoder} (h : SameEncoder q q₁)
    (h' : SameEncoder q₁ q₂) : SameEncoder q q₂ := by
  unfold SameEncoder at h h' ⊢
  rw [h', h]

theorem filter_eq_self_of_take {streamId : Int64}
    {index : Nat} (hle : l.length ≤ index)
    (h : ∀ e ∈ l.take index, e.streamId ≠ streamId) :
    l = l.filter (fun e => e.streamId ≠ streamId) := by
  rw [take_of_length_le hle] at h
  exact (filter_eq_self.mpr (by simpa using h)).symm

theorem cancelLoop_spec {streamId : Int64} {n index : Nat} {q : Encoder}
    (hcount : CountInv q) (hfuel : q.inflight.length ≤ n + index)
    (hdone : ∀ e ∈ q.inflight.take index, e.streamId ≠ streamId)
    (hex : CancelExact streamId n index q.inflight) :
    (cancelLoop streamId n index q).inflight = q.inflight.filter (fun e =>
      e.streamId ≠ streamId) ∧
      CountInv (cancelLoop streamId n index q) ∧
      SameEncoder q (cancelLoop streamId n index q) := by
  induction n generalizing index q with
  | zero =>
    have hle : q.inflight.length ≤ index := by omega
    exact ⟨filter_eq_self_of_take hle hdone, hcount, rfl⟩
  | succ n ih =>
    rw [cancelLoop]
    rw [CancelExact] at hex
    by_cases hlt : index < q.inflight.length
    · rw [if_pos hlt] at hex ⊢
      rw [getD_eq_getElem _ _ hlt] at hex ⊢
      by_cases hid : q.inflight[index].streamId = streamId
      · rw [if_pos hid] at hex ⊢
        obtain ⟨hev, hrest⟩ := hex
        obtain ⟨hl, hc, hs⟩ := evictInflightByIndex_spec hlt hev hcount
        have herase := eraseIdx_eq_take_drop_succ q.inflight index
        have hlen : (q.inflight.take index).length = index := by
          rw [length_take, min_eq_left hlt.le]
        obtain ⟨hl', hc', hs'⟩ := @ih index (evictInflightByIndex q index) hc
          (by rw [hl, length_eraseIdx_of_lt hlt]; omega)
          (by rwa [hl, herase, take_left' hlen]) (hl ▸ hrest)
        refine ⟨?_, hc', hs.trans hs'⟩
        have hsplit : q.inflight = q.inflight.take index ++
            (q.inflight[index] :: q.inflight.drop (index + 1)) := by
          rw [getElem_cons_drop, take_append_drop]
        conv_rhs => rw [hsplit]
        rw [hl', hl, herase, filter_append, filter_append,
          filter_cons_of_neg (by simpa using hid)]
      · rw [if_neg hid] at hex ⊢
        refine ih hcount (by omega) ?_ hex
        intro e he
        rw [take_succ_eq_append_getElem hlt, mem_append, mem_singleton] at he
        rcases he with he | rfl
        · exact hdone e he
        · exact hid
    · rw [if_neg hlt]
      exact ⟨filter_eq_self_of_take (by omega) hdone, hcount, rfl⟩

end H2o.Qpack
