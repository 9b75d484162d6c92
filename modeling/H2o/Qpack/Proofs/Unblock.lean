/-
Blocked streams: who is reported, and when.

# The list

The ids of the streams no longer blocked are written over the beginning of the
list, word by word, while the loop reads ahead; `unblockLoop_spec` says what
the memory holds afterwards. The entries reported stay at the front until the
next call. What waits is behind them, sorted by largest reference (`Waits`).

# The removal

Removing the reported entries moves as many entries as remain, from the
position of that number. This is the tail of the list only if nothing was
reported, if nothing remains, or if as many remain as were reported
(`RemovalExact`).

# The history

`pending log` are the sections that were blocked and that no successful call
since has brought enough inserts for. A call reports those of them whose count
it reaches, and the others wait.
-/
import H2o.Qpack.Proofs.Prefix

namespace H2o.Qpack

open Lib List Option

variable {w : List (Int × Nat)} {d : Decoder} {log : List Observation}

-- ==== memory

/-- A word that is written is read back, the others as before. -/
theorem loadWord_storeWord {es : List Blocked} {k : Nat}
    (hk : k / 3 < es.length) (v : Int) (j : Nat) :
    loadWord (storeWord es k v) j = if j = k then v else loadWord es j := by
  unfold loadWord storeWord
  simp only [getD_eq_getElem?_getD]
  by_cases hj : k / 3 = j / 3
  · have hlt : j / 3 < es.length := hj ▸ hk
    rw [hj, getElem?_modify_eq, getElem?_eq_getElem hlt]
    have hjk : j = k ↔ j % 3 = k % 3 := by omega
    have hk3 : k % 3 < 3 := Nat.mod_lt _ (by decide)
    have hj3 : j % 3 < 3 := Nat.mod_lt _ (by decide)
    simp only [hjk]
    interval_cases k % 3 <;> interval_cases j % 3 <;> rfl
  · have hne : j ≠ k := by
      rintro rfl
      exact hj rfl
    rw [if_neg hne, getElem?_modify_ne _ _ hj]

-- The three words of entry `i`.

theorem loadWord_streamId (es : List Blocked) (i : Nat) :
    loadWord es (3 * i) = (es.getD i ⟨0, 0, 0⟩).streamId := by
  rw [loadWord, Nat.mul_div_cancel_left _ (by decide), Nat.mul_mod_right]
  rfl

theorem loadWord_largestRef (es : List Blocked) (i : Nat) :
    loadWord es (3 * i + 1) = (es.getD i ⟨0, 0, 0⟩).largestRef := by
  rw [loadWord, show (3 * i + 1) / 3 = i by omega,
    show (3 * i + 1) % 3 = 1 by omega]
  rfl

theorem loadWord_flags (es : List Blocked) (i : Nat) :
    loadWord es (3 * i + 2) = (es.getD i ⟨0, 0, 0⟩).flags := by
  rw [loadWord, show (3 * i + 2) / 3 = i by omega,
    show (3 * i + 2) % 3 = 2 by omega]
  rfl

/-- An entry whose words are unchanged is unchanged. -/
theorem getD_of_loadWord {es orig : List Blocked} {i : Nat}
    (h : ∀ j, 3 * i ≤ j → loadWord es j = loadWord orig j) :
    es.getD i ⟨0, 0, 0⟩ = orig.getD i ⟨0, 0, 0⟩ := by
  have h₀ := h (3 * i) le_rfl
  have h₁ := h (3 * i + 1) (by omega)
  have h₂ := h (3 * i + 2) (by omega)
  rw [loadWord_streamId, loadWord_streamId] at h₀
  rw [loadWord_largestRef, loadWord_largestRef] at h₁
  rw [loadWord_flags, loadWord_flags] at h₂
  cases hx : es.getD i ⟨0, 0, 0⟩
  cases hy : orig.getD i ⟨0, 0, 0⟩
  simp_all

/-- The loop, from position `k` on: the words below `k` hold the ids written,
the others what they held at first. -/
theorem unblockLoop_spec {orig : List Blocked} {total : Nat} {n k : Nat}
    {es : List Blocked} (hn : n + k = orig.length)
    (hlen : es.length = orig.length)
    (hwords : ∀ j, loadWord es j =
      if j < k then loadWord orig (3 * j) else loadWord orig j) :
    ∃ c, (unblockLoop total n k es).2 = c ∧ k ≤ c ∧ c ≤ orig.length ∧
      (unblockLoop total n k es).1.length = orig.length ∧
      (∀ j, loadWord (unblockLoop total n k es).1 j =
        if j < c then loadWord orig (3 * j) else loadWord orig j) ∧
      (∀ j, k ≤ j → j < c → (orig.getD j ⟨0, 0, 0⟩).largestRef % 2 ^ 64 ≤
        total) ∧
      (c < orig.length → (orig.getD c ⟨0, 0, 0⟩).largestRef % 2 ^ 64 >
        total) := by
  induction n generalizing k es with
  | zero => exact ⟨k, rfl, le_rfl, by omega, hlen, hwords, by omega, by omega⟩
  | succ n ih =>
    -- the entry at `k` has not been written over
    have hentry : es.getD k ⟨0, 0, 0⟩ = orig.getD k ⟨0, 0, 0⟩ := by
      refine getD_of_loadWord fun j hj => ?_
      rw [hwords, if_neg (by omega)]
    rw [unblockLoop]
    simp only [hentry]
    split
    next hgt =>
      exact ⟨k, rfl, le_rfl, by omega, hlen, hwords, by omega, fun _ => hgt⟩
    next hle =>
      have hwords' : ∀ j,
          loadWord (storeWord es k (orig.getD k ⟨0, 0, 0⟩).streamId) j =
            if j < k + 1 then loadWord orig (3 * j) else loadWord orig j := by
        intro j
        rw [loadWord_storeWord (by omega), hwords j, ← loadWord_streamId]
        split
        next hj => rw [hj, if_pos (by omega)]
        next hj =>
          by_cases hlt : j < k
          · rw [if_pos hlt, if_pos (by omega)]
          · rw [if_neg hlt, if_neg (by omega)]
      obtain ⟨c, hc, hkc, hcl, hlen', hfinal, hbelow, habove⟩ :=
        ih (by omega) (by simp [storeWord, hlen]) hwords'
      refine ⟨c, hc, by omega, hcl, hlen', hfinal, ?_, habove⟩
      intro j hj hjc
      by_cases hjk : j = k
      · subst hjk
        omega
      · exact hbelow j (by omega) hjc

-- ==== what is waiting

/-- An entry of the list. -/
def entryOf (e : Int × Nat) : Blocked := ⟨e.1, e.2, 0⟩

/-- What is reported when the count of inserts is `total`. -/
def due (total : Nat) (w : List (Int × Nat)) : List (Int × Nat) :=
  w.filter (·.2 ≤ total)

/-- What goes on waiting. -/
def notDue (total : Nat) (w : List (Int × Nat)) : List (Int × Nat) :=
  w.filter (total < ·.2)

/-- A sorted list is split by its first entry that is not due. -/
theorem due_eq_take {w : List (Int × Nat)} {total c : Nat}
    (hsorted : w.Pairwise fun a b => a.2 ≤ b.2)
    (hbelow : ∀ e ∈ w.take c, e.2 ≤ total)
    (habove : ∀ e, w[c]? = some e → total < e.2) :
    due total w = w.take c ∧ notDue total w = w.drop c := by
  have hdrop : ∀ e ∈ w.drop c, total < e.2 := by
    intro e he
    cases hd : w.drop c with
    | nil => simp [hd] at he
    | cons x xs =>
      have hx := habove x (by rw [← head?_drop, hd]; rfl)
      have hp := hsorted.sublist (drop_sublist c w)
      rw [hd, pairwise_cons] at hp
      rw [hd, mem_cons] at he
      rcases he with rfl | he
      · exact hx
      · exact hx.trans_le (hp.1 e he)
  have hsplit := take_append_drop c w
  constructor
  · unfold due
    rw [← hsplit, filter_append, filter_eq_self.mpr (by simpa using hbelow),
      filter_eq_nil_iff.mpr
      (by simpa using hdrop), append_nil, hsplit]
  · unfold notDue
    rw [← hsplit, filter_append, filter_eq_nil_iff.mpr (by simpa using hbelow),
      filter_eq_self.mpr
      (by simpa using hdrop), nil_append, hsplit]

theorem getD_map_entryOf {j : Nat} (hj : j < w.length) :
    (w.map entryOf).getD j ⟨0, 0, 0⟩ = entryOf w[j] := by
  rw [getD_eq_getElem _ _ (by simpa using hj), getElem_map]

/-- The loop over a sorted list: the ids of what is due are returned, what is
not due is still there, and behind the entries that were reported. -/
theorem unblockLoop_waiting (hsorted : w.Pairwise fun a b => a.2 ≤ b.2)
    (hle : ∀ e ∈ w, e.2 ≤ quicintMax) (total : Nat) :
    ∃ es stale, unblockLoop total w.length 0 (w.map entryOf) =
      (es, (due total w).length) ∧
      es = stale ++ (notDue total w).map entryOf ∧
      stale.length = (due total w).length ∧
      (∀ e, stale.getLast? = some e → e.largestRef ≤ total) ∧
      (List.range (due total w).length).map (loadWord es) =
        (due total w).map Prod.fst := by
  obtain ⟨c, hc, -, hcl, hlen, hwords, hbelow, habove⟩ :=
    @unblockLoop_spec (w.map entryOf) total w.length 0 (w.map entryOf)
      (by simp) rfl (by simp)
  rw [length_map] at hcl hlen habove
  have href : ∀ j, (hj : j < w.length) →
      ((w.map entryOf).getD j ⟨0, 0, 0⟩).largestRef % 2 ^ 64 = w[j].2 := by
    intro j hj
    have := hle w[j] (getElem_mem hj)
    rw [getD_map_entryOf hj]
    simp only [entryOf, quicintMax] at this ⊢
    omega
  obtain ⟨hdue, hnot⟩ := @due_eq_take w total c hsorted (by
      intro e he
      obtain ⟨j, hj, rfl⟩ := getElem_of_mem he
      rw [length_take] at hj
      have := hbelow j (Nat.zero_le _) (by omega)
      rw [href j (by omega)] at this
      rw [getElem_take]
      exact_mod_cast this)
    (by
      intro e he
      obtain ⟨hlt, rfl⟩ := List.getElem?_eq_some_iff.mp he
      have := habove hlt
      rw [href c hlt] at this
      exact_mod_cast this)
  have hcount : (due total w).length = c := by
    rw [hdue, length_take]
    omega
  cases hr : unblockLoop total w.length 0 (w.map entryOf) with
  | mk es c' =>
    rw [hr] at hc hlen hwords
    obtain rfl : c' = c := hc
    replace hlen : es.length = w.length := hlen
    -- the words of the entries from `c` on are not among the first `c`
    have htail : ∀ i, c' ≤ i → es.getD i ⟨0, 0, 0⟩ =
        (w.map entryOf).getD i ⟨0, 0, 0⟩ := by
      intro i hi
      refine getD_of_loadWord fun j hj => ?_
      rw [hwords, if_neg (by omega)]
    refine ⟨es, es.take c', by rw [hcount], ?_, ?_, ?_, ?_⟩
    · have hdrop : es.drop c' = (w.drop c').map entryOf := by
        refine ext_getElem (by simp [hlen]) fun i h₁ h₂ => ?_
        rw [length_drop] at h₁
        have hi := htail (c' + i) (by omega)
        rw [getD_eq_getElem _ _ (by omega), getD_map_entryOf (by omega)] at hi
        rw [getElem_drop, getElem_map, getElem_drop, hi]
      rw [hnot, ← hdrop, take_append_drop]
    · rw [length_take, hcount]
      omega
    · intro e he
      have hpos : 0 < c' := by
        by_contra h0
        obtain rfl : c' = 0 := by omega
        simp at he
      rw [getLast?_eq_getElem?, length_take, min_eq_left (by omega),
        getElem?_take_of_lt (by omega),
        getElem?_eq_some_iff] at he
      obtain ⟨hlt, rfl⟩ := he
      have hword := hwords (3 * (c' - 1) + 1)
      rw [if_neg (by omega), loadWord_largestRef, loadWord_largestRef,
        getD_eq_getElem _ _ hlt, getD_map_entryOf (by omega)] at hword
      have := hbelow (c' - 1) (Nat.zero_le _) (by omega)
      rw [href (c' - 1) (by omega)] at this
      rw [hword]
      exact this
    · rw [hcount, hdue]
      refine ext_getElem (by simp; omega) fun i h₁ h₂ => ?_
      rw [length_map, length_range] at h₁
      rw [getElem_map, getElem_range, hwords, if_pos h₁,
        loadWord_streamId, getD_map_entryOf (by omega), getElem_map,
        getElem_take]
      rfl

-- ==== the decoder

/-- What waits stands behind the entries that were reported last. The last of
these has kept its reference, so that what is linked next goes behind it. -/
structure Waits (d : Decoder) (w : List (Int × Nat)) : Prop where
  sorted : w.Pairwise fun a b => a.2 ≤ b.2
  le : ∀ e ∈ w, e.2 ≤ quicintMax
  list : ∃ stale, d.blocked = stale ++ w.map entryOf ∧
    stale.length = d.numUnblocked ∧
    ∀ e, stale.getLast? = some e → e.largestRef ≤ d.totalInserts

/-- The move of `h2o_qpack_decoder_handle_input` takes the tail of the list. -/
def RemovalExact (d : Decoder) : Prop :=
  d.numUnblocked = 0 ∨ d.blocked.length - d.numUnblocked = 0 ∨
    d.blocked.length - d.numUnblocked = d.numUnblocked

instance (d : Decoder) : Decidable (RemovalExact d) := by
  unfold RemovalExact
  infer_instance

/-- Those reported go, those waiting stay. -/
theorem Waits.removeUnblocked (h : Waits d w) (hr : RemovalExact d) :
    Qpack.removeUnblocked d =
      some { d with blocked := w.map entryOf, numUnblocked := 0 } := by
  obtain ⟨stale, hlist, hlen, -⟩ := h.list
  have htotal : d.blocked.length = d.numUnblocked + w.length := by
    rw [hlist, length_append, length_map, hlen]
  have hdrop : d.blocked.drop d.numUnblocked = w.map entryOf := by
    rw [hlist, ← hlen, drop_left]
  unfold Qpack.removeUnblocked
  simp only
  split
  next hn =>
    have hrem : d.blocked.length - d.numUnblocked = w.length := by omega
    rcases hr with h0 | h0 | h0
    · exact absurd h0 hn
    · obtain rfl : w = [] := eq_nil_of_length_eq_zero (by omega)
      rw [h0, if_pos (by omega)]
      simp
    · rw [h0, if_pos (by omega), hdrop, take_of_length_le (by simp; omega)]
  next hn =>
    have hn : d.numUnblocked = 0 := by simpa using hn
    rw [hn, drop_zero] at hdrop
    cases d
    simp_all

theorem linkPosition_spec (entries : List Blocked) (ref : Int) (i : Nat) :
    linkPosition entries ref i ≤ i ∧
      (∀ j, linkPosition entries ref i ≤ j → j < i →
        ref < (entries.getD j ⟨0, 0, 0⟩).largestRef) ∧
      (0 < linkPosition entries ref i →
        (entries.getD (linkPosition entries ref i - 1) ⟨0, 0, 0⟩).largestRef ≤
          ref) := by
  induction i with
  | zero => exact ⟨le_rfl, by omega, nofun⟩
  | succ i ih =>
    rw [linkPosition]
    split
    next hle => exact ⟨le_rfl, by omega, fun _ => hle⟩
    next hgt =>
      obtain ⟨hpos, habove, hbelow⟩ := ih
      refine ⟨by omega, fun j hj hji => ?_, hbelow⟩
      by_cases h : j = i
      · rw [h]
        omega
      · exact habove j hj (by omega)

/-- Where a section is linked: behind what does not wait for more. -/
theorem linkPosition_eq {entries stale : List Blocked} {ref : Nat}
    (hsorted : w.Pairwise fun a b => a.2 ≤ b.2)
    (hlast : ∀ e, stale.getLast? = some e → e.largestRef ≤ ref)
    (hlist : entries = stale ++ w.map entryOf) :
    ∃ k ≤ w.length, linkPosition entries ref entries.length =
      stale.length + k ∧
        (∀ e ∈ w.take k, e.2 ≤ ref) ∧ (∀ e ∈ w.drop k, ref < e.2) := by
  obtain ⟨hle, habove, hbelow⟩ := linkPosition_spec entries ref entries.length
  generalize linkPosition entries ref entries.length = p at hle habove hbelow ⊢
  have hlen : entries.length = stale.length + w.length := by
    rw [hlist, length_append, length_map]
  have hwait : ∀ j, (hj : j < w.length) →
      entries.getD (stale.length + j) ⟨0, 0, 0⟩ = entryOf w[j] := by
    intro j hj
    rw [hlist, getD_append_right _ _ _ _ (by omega), Nat.add_sub_cancel_left,
      getD_map_entryOf hj]
  -- the search does not go past the last entry that was reported
  have hstale : stale.length ≤ p := by
    by_contra hlt
    have hne : stale ≠ [] := by
      rintro rfl
      simp at hlt
    have hget := getLast?_eq_some_getLast hne
    have := habove (stale.length - 1) (by omega) (by omega)
    rw [hlist, getD_append _ _ _ _ (by omega),
      getD_eq_getElem _ _ (by omega), ← getLast_eq_getElem hne] at this
    have := hlast _ hget
    omega
  obtain ⟨k, rfl⟩ := Nat.exists_eq_add_of_le hstale
  refine ⟨k, by omega, rfl, ?_, ?_⟩
  · intro e he
    obtain ⟨j, hj, rfl⟩ := getElem_of_mem he
    rw [length_take] at hj
    have hk := hbelow (by omega)
    rw [show stale.length + k - 1 = stale.length + (k - 1) by omega,
      hwait (k - 1) (by omega)] at hk
    have hk' : w[k - 1].2 ≤ ref := Int.ofNat_le.mp hk
    rw [getElem_take]
    by_cases hjk : j = k - 1
    · subst hjk
      exact hk'
    · exact (pairwise_iff_getElem.mp hsorted j (k - 1) _ _ (by omega)).trans
        hk'
  · intro e he
    obtain ⟨j, hj, rfl⟩ := getElem_of_mem he
    rw [length_drop] at hj
    have hk := habove (stale.length + (k + j)) (by omega) (by omega)
    rw [hwait (k + j) (by omega)] at hk
    rw [getElem_drop]
    exact Int.ofNat_lt.mp hk

theorem insertIdx_length_append {α : Type} (a b : List α) (x : α) :
    (a ++ b).insertIdx a.length x = a ++ x :: b := by
  induction a with
  | nil => simp
  | cons y a ih => simp [ih]

/-- A blocked section is linked in order. -/
theorem Waits.link {d : Decoder} {w : List (Int × Nat)} (h : Waits d w)
    {streamId : Int} {ref : Nat} (hgt : d.totalInserts < ref)
    (hmax : ref ≤ quicintMax) :
    ∃ w', w'.Perm ((streamId, ref) :: w) ∧
      Waits (decoderLinkBlocked d streamId ref) w' := by
  obtain ⟨stale, hlist, hlen, hlast⟩ := h.list
  obtain ⟨k, hk, hpos, hbelow, habove⟩ := linkPosition_eq h.sorted
    (fun e he => (hlast e he).trans (by exact_mod_cast hgt.le)) hlist
  have hsplit : w.take k ++ w.drop k = w := take_append_drop k w
  refine ⟨w.take k ++ (streamId, ref) :: w.drop k, ?_, ?_, ?_, stale, ?_,
    hlen, hlast⟩
  · conv_rhs => rw [← hsplit]
    exact perm_middle
  · have hs := h.sorted
    rw [← hsplit, pairwise_append] at hs
    obtain ⟨hs₁, hs₂, hs₃⟩ := hs
    refine pairwise_append.mpr ⟨hs₁, pairwise_cons.mpr
      ⟨fun e he => (habove e he).le, hs₂⟩, fun a ha b hb => ?_⟩
    rcases mem_cons.mp hb with rfl | hb
    · exact hbelow a ha
    · exact hs₃ a ha b hb
  · intro e he
    rcases mem_append.mp he with he | he
    · exact h.le e (mem_of_mem_take he)
    · rcases mem_cons.mp he with rfl | he
      · exact hmax
      · exact h.le e (mem_of_mem_drop he)
  · show d.blocked.insertIdx (linkPosition d.blocked ref d.blocked.length) _ =
      _
    have hfront : stale.length + k =
        (stale ++ (w.take k).map entryOf).length := by
      simp [hk]
    have hmap : w.map entryOf = (w.take k).map entryOf ++
        (w.drop k).map entryOf := by
      rw [← map_append, hsplit]
    rw [hpos, hlist, hmap, hfront, ← append_assoc,
      insertIdx_length_append, append_assoc, map_append,
      map_cons]
    rfl

-- ==== the history

/-- Whether a successful call has brought this many inserts. -/
def reached (ref : Nat) (log : List Observation) : Bool :=
  log.any fun
    | .unblocked total _ => ref ≤ total
    | .blocked _ _ => false

/-- The sections that were blocked, and that no successful call since has
brought enough inserts for. -/
def pending : List Observation → List (Int × Nat)
  | [] => []
  | .blocked streamId ref :: log =>
    if reached ref log then pending log else (streamId, ref) :: pending log
  | .unblocked _ _ :: log => pending log

/-- Every successful call has returned the ids of exactly the pending sections
whose count it has reached, each once. -/
def Reported (log : List Observation) : Prop :=
  ∀ before total ids after, log = before ++ .unblocked total ids :: after →
      ids.Perm ((due total (pending before)).map Prod.fst)

theorem pending_blocked (log : List Observation) (streamId : Int) (ref : Nat) :
    pending (log ++ [.blocked streamId ref]) =
      pending log ++ [(streamId, ref)] := by
  induction log with
  | nil => rfl
  | cons o log ih =>
    cases o with
    | unblocked total ids => exact ih
    | blocked streamId' ref' =>
      have hr : reached ref' (log ++ [.blocked streamId ref]) =
          reached ref' log := by simp [reached]
      rw [cons_append, pending, pending, hr, ih]
      split <;> rfl

theorem pending_unblocked (log : List Observation) (total : Nat)
    (ids : List Int) :
    pending (log ++ [.unblocked total ids]) = notDue total (pending log) := by
  induction log with
  | nil => rfl
  | cons o log ih =>
    cases o with
    | unblocked total' ids' => exact ih
    | blocked streamId ref =>
      have hr : reached ref (log ++ [.unblocked total ids]) =
          (reached ref log || decide (ref ≤ total)) := by simp [reached]
      rw [cons_append, pending, pending, hr, ih]
      cases reached ref log with
      | true => simp
      | false =>
        by_cases hle : ref ≤ total
        · simp [hle, notDue]
        · simp [hle, notDue, Nat.lt_of_not_le hle]

/-- A call in a longer history is the last one or an earlier one. -/
theorem concat_eq_append_cons {α : Type} {log before after : List α} {o u : α}
    (h : log ++ [o] = before ++ u :: after) :
    (log = before ∧ o = u) ∨ ∃ after', log = before ++ u :: after' := by
  rcases eq_nil_or_concat after with rfl | ⟨after', x, rfl⟩
  · obtain ⟨rfl, ho⟩ := append_inj' h rfl
    exact .inl ⟨rfl, (cons.inj ho).1⟩
  · have h' : log ++ [o] = (before ++ u :: after') ++ [x] := by simpa using h
    exact .inr ⟨after', append_inj_left' h' rfl⟩

theorem Reported.blocked (h : Reported log) (streamId : Int) (ref : Nat) :
    Reported (log ++ [.blocked streamId ref]) := by
  intro before total ids after heq
  rcases concat_eq_append_cons heq with ⟨-, ho⟩ | ⟨after', hlog⟩
  · cases ho
  · exact h before total ids after' hlog

/-- Who is reported was waiting and is due. -/
theorem Reported.unblocked (h : Reported log)
    {total : Nat} {ids : List Int}
    (hids : ids.Perm ((due total (pending log)).map Prod.fst)) :
    Reported (log ++ [.unblocked total ids]) := by
  intro before total' ids' after heq
  rcases concat_eq_append_cons heq with ⟨rfl, ho⟩ | ⟨after', hlog⟩
  · obtain ⟨rfl, rfl⟩ := Observation.unblocked.inj ho
    exact hids
  · exact h before total' ids' after' hlog

-- ==== sessions

/-- An instruction leaves the list alone, and inserts are never taken back. -/
structure SameBlocked (d d' : Decoder) : Prop where
  blocked : d'.blocked = d.blocked
  numUnblocked : d'.numUnblocked = d.numUnblocked
  totalInserts : d.totalInserts ≤ d'.totalInserts

theorem Instructed.sameBlocked {d' : Decoder} (h : Instructed d d') :
    SameBlocked d d' := by
  cases h with
  | insert => exact ⟨rfl, rfl, Nat.le_succ _⟩
  | resize => exact ⟨rfl, rfl, le_rfl⟩

/-- Instructions do not touch the list. -/
theorem sameBlocked_instructions (n : Nat) (hd : DecoderInv d) (src : Bytes) :
    SameBlocked d (instructions n d src).1 := by
  refine (instructions_invariant ?_ hd ⟨rfl, rfl, le_rfl⟩).2
  intro d₁ d' _ h hi
  have h' := hi.sameBlocked
  exact ⟨h'.blocked.trans h.blocked, h'.numUnblocked.trans h.numUnblocked,
    h.totalInserts.trans h'.totalInserts⟩

/-- What holds of a session whose removals are exact. -/
structure UnblockInv (s : DecoderState) : Prop where
  decoder : DecoderInv s.decoder
  waits : ∃ w, w.Perm (pending s.log) ∧ Waits s.decoder w
  reported : Reported s.log

/-- The removal at the start of a call is exact. -/
def DecoderState.UnblockCond (s : DecoderState) : DecoderEvent → Prop
  | .parse _ _ => True
  | .input _ => RemovalExact s.decoder

instance (s : DecoderState) : DecidablePred s.UnblockCond
  | .parse _ _ => .isTrue trivial
  | .input _ => by unfold DecoderState.UnblockCond; infer_instance

/-- What parsing the beginning of a section does to the decoder: nothing, or
the section is linked. -/
theorem parseDecodeContext_cases (d : Decoder) (streamId : Int) (src : Bytes) :
    (∃ r, parseDecodeContext d streamId src = (d, r) ∧
      r ≠ .error .incomplete) ∨
    ∃ ref, requiredInsertCount d src = some ref ∧ d.table.totalInserts ≤ ref ∧
      ref ≤ quicintMax ∧
      parseDecodeContext d streamId src =
        (decoderLinkBlocked d streamId ref, .error .incomplete) := by
  rcases parseDecodeContext_eq d streamId src with ⟨ctx, rest, hp⟩ | hr
  · rw [hp.parse_eq]
    obtain ⟨encoded, b, tl, delta, hint, hric, -⟩ := hp
    split
    next hge =>
      split
      · exact .inl ⟨_, rfl, nofun⟩
      · refine .inr ⟨ctx.reqInsertCount, ?_, hge, decodeReqInsertCount_le hric,
          rfl⟩
        rw [requiredInsertCount, hint]
        exact hric
    next => exact .inl ⟨_, rfl, nofun⟩
  · exact .inl ⟨_, hr, nofun⟩

theorem UnblockInv.parse {s : DecoderState} (h : UnblockInv s) (streamId : Int)
    (src : Bytes) :
    ∃ s', s.step (.parse streamId src) = .ok s' ∧ UnblockInv s' := by
  have hinv := carried_decoderInv.parseDecodeContext h.decoder streamId src
  obtain ⟨w, hperm, hwaits⟩ := h.waits
  rcases parseDecodeContext_cases s.decoder streamId src with
    ⟨r, hp, hr⟩ | ⟨ref, hric, hge, hmax, hp⟩
  · refine ⟨s, ?_, h⟩
    rw [DecoderState.step, hp]
    split
    next heq =>
      cases heq
      exact absurd rfl hr
    next heq => rw [← (Prod.mk.inj heq).1]
  · have hcount := h.decoder.count
    obtain ⟨w', hperm', hwaits'⟩ :=
      @Waits.link _ _ hwaits streamId ref (by omega) hmax
    refine ⟨_, by rw [DecoderState.step, hp], ?_, ⟨w', ?_, hwaits'⟩,
      h.reported.blocked _ _⟩
    · rwa [hp] at hinv
    · rw [pending_blocked, hric, getD_some]
      exact hperm'.trans
        ((hperm.cons _).trans (perm_append_singleton _ _).symm)

/-- A call reports all that are due. -/
theorem UnblockInv.input {s : DecoderState} (h : UnblockInv s) (src : Bytes)
    (hr : RemovalExact s.decoder) :
    ∃ s', s.step (.input src) = .ok s' ∧ UnblockInv s' := by
  obtain ⟨w, hperm, hwaits⟩ := h.waits
  have hremove := hwaits.removeUnblocked hr
  have hd₁ := carried_decoderInv.removeUnblocked h.decoder hremove
  generalize hd : ({ s.decoder with
    blocked := w.map entryOf, numUnblocked := 0 } : Decoder) =
      d₁ at hremove hd₁
  have hsame := sameBlocked_instructions src.length hd₁ src
  cases hi : instructions src.length d₁ src with
  | mk d₂ r =>
    rw [hi] at hsame
    have hblocked : d₂.blocked = w.map entryOf := by
      rw [hsame.blocked, ← hd]
    have hnum : d₂.numUnblocked = 0 := by rw [hsame.numUnblocked, ← hd]
    cases r with
    | error e =>
      have hin : handleInput s.decoder src = some (d₂, .error e) := by
        simp only [handleInput, hremove, map_some, hi]
      refine ⟨{ s with decoder := d₂ }, by rw [DecoderState.step, hin],
        carried_decoderInv.handleInput h.decoder h.decoder hin,
        ⟨w, hperm, hwaits.sorted, hwaits.le, [], ?_, ?_, nofun⟩, h.reported⟩
      · exact hblocked
      · exact hnum.symm
    | ok rest =>
      obtain ⟨es, stale, hloop, hes, hlen, hlast, hids⟩ :=
        unblockLoop_waiting hwaits.sorted hwaits.le d₂.totalInserts
      have hin : handleInput s.decoder src = some ({ d₂ with
              blocked := es
              numUnblocked := (due d₂.totalInserts w).length },
            .ok (rest, (due d₂.totalInserts w).map Prod.fst)) := by
        simp only [handleInput, hremove, map_some, hi, hblocked, length_map,
          hloop, hids]
      refine ⟨_, by rw [DecoderState.step, hin],
        carried_decoderInv.handleInput h.decoder h.decoder hin,
        ⟨notDue d₂.totalInserts w, ?_, ?_, ?_, stale, hes, hlen, hlast⟩,
        h.reported.unblocked ?_⟩
      · rw [pending_unblocked]
        exact hperm.filter _
      · exact hwaits.sorted.sublist filter_sublist
      · exact fun e he => hwaits.le e (mem_of_mem_filter he)
      · exact (hperm.filter _).map _

theorem UnblockInv.run {size : UInt32} {maxBlocked : UInt16}
    {events : List DecoderEvent}
    (h : Meets DecoderState.step DecoderState.UnblockCond
      (.create size maxBlocked) events) :
    ∃ s, events.foldlM DecoderState.step (.create size maxBlocked) = .ok s ∧
      UnblockInv s := by
  refine run_of_meets ?_ ?_ h
  · intro s e hs hcond
    cases e with
    | parse streamId src => exact hs.parse streamId src
    | input src => exact hs.input src hcond
  · refine ⟨.create size maxBlocked,
      ⟨[], .nil, .nil, nofun, [], rfl, rfl, nofun⟩, ?_⟩
    intro before total ids after heq
    simp [DecoderState.create] at heq

/-- Every blocked section is reported by exactly one call, the first successful
one that brings enough inserts, and what is not reported waits in the list,
sorted, as long as the removals at the start of the calls are exact. -/
theorem blocked_sections_reported_once (size : UInt32) (maxBlocked : UInt16)
    (events : List DecoderEvent)
    (h : Meets DecoderState.step DecoderState.UnblockCond
      (.create size maxBlocked) events) :
    ∃ (s : DecoderState) (w : List (Int × Nat)),
      events.foldlM DecoderState.step (.create size maxBlocked) = .ok s ∧
      Reported s.log ∧ w.Perm (pending s.log) ∧
      (w.Pairwise fun a b => a.2 ≤ b.2) ∧
      s.decoder.blocked.drop s.decoder.numUnblocked = w.map entryOf := by
  obtain ⟨s, hrun, hinv⟩ := UnblockInv.run h
  obtain ⟨w, hperm, hwaits⟩ := hinv.waits
  obtain ⟨stale, hlist, hlen, -⟩ := hwaits.list
  exact ⟨s, w, hrun, hinv.reported, hperm, hwaits.sorted, by
    rw [hlist, ← hlen, drop_left]⟩

/-- An insertion with a static name and a value of one octet. -/
def oneInsert : DecoderEvent := .input [0xc1, 0x01, 0x61]

/-- Sections that need one insert and two, and the inserts. -/
def twoBlocked : List DecoderEvent :=
  [.parse 4 [0x03, 0x00], .parse 0 [0x02, 0x00], oneInsert, oneInsert]

theorem blocked_sections_of_twoBlocked :
    ∃ (s : DecoderState) (w : List (Int × Nat)),
      twoBlocked.foldlM DecoderState.step (.create 4096 100) = .ok s ∧
      Reported s.log ∧ w.Perm (pending s.log) ∧
      (w.Pairwise fun a b => a.2 ≤ b.2) ∧
      s.decoder.blocked.drop s.decoder.numUnblocked = w.map entryOf :=
  blocked_sections_reported_once 4096 100 twoBlocked (by decide +kernel)

/-- Of three blocked sections the first insert unblocks two. The removal then
keeps the second of these instead of the third: it is reported again with the
second insert, and the third section never. -/
theorem third_blocked_section_lost :
    (match [DecoderEvent.parse 0 [0x02, 0x00], .parse 4 [0x02, 0x00],
        .parse 8 [0x03, 0x00], oneInsert, oneInsert].foldlM
          DecoderState.step (.create 4096 100) with
      | .ok s => s.log
      | .error _ => []) = [.blocked 0 1, .blocked 4 1, .blocked 8 2,
        .unblocked 1 [0, 4],
          .unblocked 2 [4]] := by
  decide +kernel

/-- A section that has to wait is refused if the sections that wait, those
that the last call has reported and one more make up the limit. So long as
they do not, or if those that wait make it up alone, it is refused if and only
if the limit is reached by those that wait. -/
theorem blocked_section_limit (size : UInt32) (maxBlocked : UInt16)
    (events : List DecoderEvent)
    (h : Meets DecoderState.step DecoderState.UnblockCond
      (.create size maxBlocked) events)
    (s : DecoderState)
    (hrun : events.foldlM DecoderState.step (.create size maxBlocked) = .ok s)
    (streamId : Int) (src rest : Bytes) (ctx : DecodeCtx)
    (hsection : Prefix s.decoder src ctx rest)
    (hgt : s.decoder.totalInserts < ctx.reqInsertCount) :
    ((parseDecodeContext s.decoder streamId src).2 = refused ↔
      s.decoder.maxBlocked ≤
        (pending s.log).length + s.decoder.numUnblocked + 1) ∧
    ((pending s.log).length = s.decoder.maxBlocked ∨
        (pending s.log).length + s.decoder.numUnblocked + 1 <
          s.decoder.maxBlocked →
      ((parseDecodeContext s.decoder streamId src).2 = refused ↔
        (pending s.log).length = s.decoder.maxBlocked)) := by
  obtain ⟨s', hrun', hinv⟩ := UnblockInv.run h
  obtain rfl := Except.ok.inj (hrun'.symm.trans hrun)
  obtain ⟨w, hperm, hwaits⟩ := hinv.waits
  obtain ⟨stale, hlist, hlen, -⟩ := hwaits.list
  have hcount := hinv.decoder.count
  have hsize : s'.decoder.blocked.length = (pending s'.log).length +
      s'.decoder.numUnblocked := by
    rw [hlist, length_append, length_map, hlen, hperm.length_eq, Nat.add_comm]
  have hexact : (parseDecodeContext s'.decoder streamId src).2 = refused ↔
      s'.decoder.maxBlocked ≤
        (pending s'.log).length + s'.decoder.numUnblocked + 1 := by
    rw [hsection.parse_eq, if_pos (by omega), ← hsize]
    split
    next hfull => exact iff_of_true rfl hfull
    next hroom => exact iff_of_false nofun hroom
  exact ⟨hexact, fun hroom =>
    hexact.trans ⟨fun _ => by omega, fun _ => by omega⟩⟩

/-- Two sections wait and an insert ends the wait of one. The other and the one
that has been reported make up the limit of three. -/
theorem blocked_section_limit_of_three : ∃ s,
    [.parse 0 [0x02, 0x00], .parse 4 [0x03, 0x00], oneInsert].foldlM
        DecoderState.step (.create 4096 3) = .ok s ∧
      pending s.log = [(4, 2)] ∧ s.decoder.numUnblocked = 1 ∧
      (parseDecodeContext s.decoder 8 [0x03, 0x00]).2 = refused := by
  have hreaches : reaches DecoderState.step (fun s =>
      decide (pending s.log = [(4, 2)]) &&
        decide (s.decoder.numUnblocked = 1) &&
      decide (decodeReqInsertCount s.decoder 3 = some 2) &&
      decide (s.decoder.totalInserts < 2 ∧ s.decoder.maxBlocked = 3))
        (.create 4096 3)
      [.parse 0 [0x02, 0x00], .parse 4 [0x03, 0x00], oneInsert] = true := by
    decide +kernel
  obtain ⟨s, hrun, htest⟩ := exists_of_reaches hreaches
  simp only [Bool.and_eq_true, decide_eq_true_iff] at htest
  obtain ⟨⟨⟨hpending, hnum⟩, hric⟩, htotal, hmax⟩ := htest
  refine ⟨s, hrun, hpending, hnum,
    (blocked_section_limit 4096 3 _ (by decide +kernel) s hrun 8
    [0x03, 0x00] [] ⟨2, 2⟩ ⟨3, 0, [], 0, rfl, hric, rfl, by decide,
      rfl⟩ htotal).1.2 ?_⟩
  rw [hpending, hnum, hmax]
  decide

/-- With a limit of one the first section that has to wait is refused. -/
theorem first_blocked_section_refused :
    (parseDecodeContext (.create 4096 1) 0 [0x02, 0x00]).2 = refused ∧
      (pending []).length < (Decoder.create 4096 1).maxBlocked :=
  ⟨rfl, by decide⟩

end H2o.Qpack
