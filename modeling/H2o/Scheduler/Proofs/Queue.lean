/-
What the scheduler's queue does with its nodes.

The ring is unrolled to a line: `turn` counts the slots passed since the queue
was set up, so that `offset` is `turn` modulo 64, and every node in a slot has
a `place` on the line. `Placed` says that the places agree with the slots, lie
within 64 of `turn`, and have their bits set. Setting a node, unlinking one
and popping one keep it, and a pop moves `turn` forward to the place of the
node it takes out.
-/
import H2o.Scheduler.Queue

namespace H2o.Scheduler

open List Option Function

variable {bits : BitVec 64} {i weight : Nat} {node node' : QueueNode}

variable {ι : Type} {queue queue' : Queue ι} {turn : Nat} {place : ι → Nat}
  {name : ι}

-- ==== the bits

/-- The bit of a slot, counted from the top. -/
theorem getMsbD_slotBit {k : Nat} (hk : k < 64) (i : Nat) :
    (1#64 <<< (63 - k)).getMsbD i = decide (i = k) := by
  grind

theorem getMsbD_allButFirst (i : Nat) :
    (1#64 <<< 63 - 1#64).getMsbD i = (decide (0 < i) && decide (i < 64)) := by
  have hnot : 1#64 <<< 63 - 1#64 = ~~~ (1#64 <<< (63 - 0)) := by decide
  rw [hnot, BitVec.getMsbD_not, getMsbD_slotBit (by decide)]
  grind

theorem lt_of_getMsbD (h : bits.getMsbD i = true) : i < 64 := by
  rw [BitVec.getMsbD_eq_getLsbD, Bool.and_eq_true] at h
  exact of_decide_eq_true h.1

theorem exists_getMsbD (hbits : bits ≠ 0) : ∃ i, bits.getMsbD i = true := by
  by_contra hnone
  refine hbits (BitVec.eq_of_getMsbD_eq fun i _ => ?_)
  exact (Bool.eq_false_iff.2 fun h =>
    hnone ⟨i, h⟩).trans BitVec.getMsbD_zero.symm

theorem clz_lt (hbits : bits ≠ 0) : clz bits < 64 := by
  obtain ⟨i, hi⟩ := exists_getMsbD hbits
  have hlt : (range 64).findIdx bits.getMsbD < (range 64).length :=
    findIdx_lt_length_of_exists ⟨i, mem_range.2 (lt_of_getMsbD hi), hi⟩
  rwa [length_range] at hlt

theorem getMsbD_clz (hbits : bits ≠ 0) : bits.getMsbD (clz bits) = true := by
  have hlt : (range 64).findIdx bits.getMsbD < (range 64).length := by
    exact clz_lt hbits
  have hat := findIdx_getElem (w := hlt)
  rwa [getElem_range] at hat

/-- `clz` finds the first bit that is set. -/
theorem clz_le (hi : bits.getMsbD i = true) : clz bits ≤ i := by
  by_contra hlt
  have hbefore : i < (range 64).findIdx bits.getMsbD := Nat.lt_of_not_le hlt
  have hfalse := not_of_lt_findIdx hbefore
  rw [getElem_range, hi] at hfalse
  cases hfalse

-- ==== the places

/-- The node is linked to a list of the queue. -/
def Queue.Has (queue : Queue ι) (name : ι) : Prop :=
  name ∈ queue.anchor257 ∨ ∃ slot, name ∈ queue.anchors slot

/-- The ring agrees with places on the unrolled line, and no node is linked
twice. -/
structure Placed (queue : Queue ι) (turn : Nat) (place : ι → Nat) : Prop where
  offset : queue.offset = turn % numSlots
  ahead : ∀ slot, ∀ name ∈ queue.anchors slot, turn ≤ place name
  slot : ∀ slot, ∀ name ∈ queue.anchors slot, place name % numSlots = slot
  bit : ∀ slot, ∀ name ∈ queue.anchors slot,
    queue.bits.getMsbD (place name - turn) = true
  nodup : ∀ slot, (queue.anchors slot).Nodup
  nodup257 : queue.anchor257.Nodup
  apart : ∀ name ∈ queue.anchor257, ∀ slot, name ∉ queue.anchors slot

theorem placed_init (place : ι → Nat) :
    Placed (queueInit : Queue ι) 0 place where
  offset := rfl
  ahead _ _ h := absurd h not_mem_nil
  slot _ _ h := absurd h not_mem_nil
  bit _ _ h := absurd h not_mem_nil
  nodup _ := nodup_nil
  nodup257 := nodup_nil
  apart _ h := absurd h not_mem_nil

/-- Nodes that are taken out of their lists. -/
theorem Placed.sublist (h : Placed queue turn place) {anchors : Nat → List ι}
    {anchor257 : List ι}
    (hslots : ∀ slot, (anchors slot).Sublist (queue.anchors slot))
    (h257 : anchor257.Sublist queue.anchor257) :
    Placed { queue with anchors, anchor257 } turn place where
  offset := h.offset
  ahead slot other hmem := h.ahead slot other ((hslots slot).mem hmem)
  slot slot other hmem := h.slot slot other ((hslots slot).mem hmem)
  bit slot other hmem := h.bit slot other ((hslots slot).mem hmem)
  nodup slot := (h.nodup slot).sublist (hslots slot)
  nodup257 := h.nodup257.sublist h257
  apart other hmem slot hin :=
    h.apart other (h257.mem hmem) slot ((hslots slot).mem hin)

theorem not_has_init (name : ι) : ¬(queueInit : Queue ι).Has name := by
  rintro (h | ⟨slot, h⟩) <;> exact not_mem_nil h

/-- Emptiness is read off the bits. -/
theorem queueIsEmpty_iff : queueIsEmpty queue = true ↔ queue.bits = 0 ∧
    queue.anchor257 = [] := by
  simp [queueIsEmpty]

theorem Placed.not_has_of_isEmpty (h : Placed queue turn place)
    (hempty : queueIsEmpty queue = true) : ¬queue.Has name := by
  obtain ⟨hbits, h257⟩ := queueIsEmpty_iff.1 hempty
  rintro (hmem | ⟨slot, hmem⟩)
  · rw [h257] at hmem
    cases hmem
  · have hbit := h.bit slot name hmem
    rw [hbits] at hbit
    exact absurd (hbit.symm.trans BitVec.getMsbD_zero) (by decide)

-- ==== queue_set

theorem offsetOf_le (weight : Nat) : offsetOf weight ≤ 63 * 65536 := by
  have hall : ∀ o ∈ offsetTable, o ≤ 63 * 65536 := by decide +kernel
  unfold offsetOf
  rw [getD_eq_getElem?_getD]
  cases hget : offsetTable[weight - 1]? with
  | none => exact Nat.zero_le _
  | some o => exact hall o (mem_of_getElem? hget)

/-- An offset stays within the 64 slots. -/
theorem offset_div_lt {deficit : Nat} (hdeficit : deficit < 65536) :
    (offsetOf weight + deficit) / 65536 < 64 := by
  have := offsetOf_le weight
  omega

/-- What `queue_set` does with the queue and the node, by the list it picks. -/
theorem queueSet_cases (h : queueSet queue name node weight =
    .ok (queue', node')) :
    node.linked = false ∧ node'.linked = true ∧
      ((256 < weight ∧ node'.deficit = node.deficit ∧
          queue' = { queue with anchor257 := queue.anchor257 ++ [name] }) ∨
        (1 ≤ weight ∧ weight ≤ 256 ∧
          node'.deficit = (offsetOf weight + node.deficit) % 65536 ∧
          ∃ k, k = (offsetOf weight + node.deficit) / 65536 ∧
            queue' = { queue with
              bits := queue.bits ||| 1#64 <<< (63 - k)
              anchors := Function.update queue.anchors
                ((queue.offset + k) % numSlots)
                (queue.anchors ((queue.offset + k) % numSlots) ++ [name])
              })) := by
  unfold queueSet at h
  split at h
  · cases h
  next hlinked =>
    refine ⟨Bool.eq_false_iff.2 hlinked, ?_⟩
    split at h
    next hweight =>
      cases h
      exact ⟨rfl, .inl ⟨hweight, rfl, rfl⟩⟩
    next hweight =>
      split at h
      · cases h
      next hpos =>
        cases h
        exact ⟨rfl, .inr ⟨Nat.le_of_not_lt hpos, Nat.le_of_not_lt hweight, rfl,
          _, rfl, rfl⟩⟩

/-- A node put into the list that is served first. -/
theorem Placed.insert257 (h : Placed queue turn place)
    (hnew : ¬queue.Has name) :
    Placed { queue with anchor257 := queue.anchor257 ++ [name] } turn place :=
  { h with
    nodup257 := concat_eq_append ▸ h.nodup257.concat fun hmem =>
      hnew (.inl hmem)
    apart := by
      intro other hmem slot hin
      rw [mem_append, mem_singleton] at hmem
      rcases hmem with hmem | rfl
      · exact h.apart other hmem slot hin
      · exact hnew (.inr ⟨slot, hin⟩) }

/-- What is in the slots after a node was put into one. -/
theorem mem_update_append {anchors : Nat → List ι} {other : ι}
    {into slot : Nat} :
    other ∈ Function.update anchors into (anchors into ++ [name]) slot ↔
      other ∈ anchors slot ∨ other = name ∧ slot = into := by
  by_cases hslot : slot = into
  · subst hslot
    simp
  · simp [hslot]

/-- The node is in the queue then, the others as before. -/
theorem has_queueSet {other : ι}
    (hset : queueSet queue name node weight = .ok (queue', node')) :
    queue'.Has other ↔ other = name ∨ queue.Has other := by
  obtain ⟨-, -, ⟨-, -, rfl⟩ | ⟨-, -, -, k, -, rfl⟩⟩ := queueSet_cases hset
  · simp only [Queue.Has, mem_append, mem_singleton]
    tauto
  · simp only [Queue.Has, mem_update_append, exists_or, exists_and_left,
      exists_eq]
    tauto

variable [DecidableEq ι]

section

variable (h : Placed queue turn place)
include h

/-- A node put `k` slots ahead of the turn. -/
theorem Placed.insert (hnew : ¬queue.Has name) {k : Nat} (hk : k < 64) :
    Placed { queue with
      bits := queue.bits ||| 1#64 <<< (63 - k)
      anchors := Function.update queue.anchors ((queue.offset + k) % numSlots)
        (queue.anchors ((queue.offset + k) % numSlots) ++ [name]) }
      turn (Function.update place name (turn + k)) := by
  have hslot : (queue.offset + k) % numSlots = (turn + k) % numSlots := by
    rw [h.offset, Nat.mod_add_mod]
  have hold : ∀ slot, ∀ other ∈ queue.anchors slot, other ≠ name := by
    rintro slot other hmem rfl
    exact hnew (.inr ⟨slot, hmem⟩)
  rw [hslot]
  refine ⟨h.offset, ?_, ?_, ?_, ?_, h.nodup257, ?_⟩
  · intro slot other hmem
    rcases mem_update_append.1 hmem with hmem | ⟨rfl, -⟩
    · rw [update_of_ne (hold slot other hmem)]
      exact h.ahead slot other hmem
    · rw [update_self]
      exact Nat.le_add_right ..
  · intro slot other hmem
    rcases mem_update_append.1 hmem with hmem | ⟨rfl, rfl⟩
    · rw [update_of_ne (hold slot other hmem)]
      exact h.slot slot other hmem
    · rw [update_self]
  · intro slot other hmem
    rw [BitVec.getMsbD_or, Bool.or_eq_true]
    rcases mem_update_append.1 hmem with hmem | ⟨rfl, -⟩
    · rw [update_of_ne (hold slot other hmem)]
      exact .inl (h.bit slot other hmem)
    · rw [update_self, Nat.add_sub_cancel_left, getMsbD_slotBit hk]
      exact .inr (decide_eq_true rfl)
  · intro slot
    dsimp only
    rw [update_apply]
    split
    · exact concat_eq_append ▸ (h.nodup _).concat fun hmem =>
        hold _ name hmem rfl
    · exact h.nodup slot
  · intro other hmem slot hin
    rcases mem_update_append.1 hin with hin | ⟨rfl, -⟩
    · exact h.apart other hmem slot hin
    · exact hnew (.inl hmem)

/-- Where `queue_set` puts a node, on the line. -/
theorem placed_queueSet (hnew : ¬queue.Has name)
    (hdeficit : node.deficit < 65536)
    (hset : queueSet queue name node weight = .ok (queue', node')) :
    ∃ place', Placed queue' turn place' ∧ node'.deficit < 65536 ∧
      (∀ other, other ≠ name → place' other = place other) ∧
      (weight ≤ 256 → name ∉ queue'.anchor257 ∧
        place' name * 65536 + node'.deficit =
          turn * 65536 + node.deficit + offsetOf weight) := by
  obtain ⟨-, -, ⟨hweight, hsame, rfl⟩ | ⟨-, -, hmod, k, hk, rfl⟩⟩ :=
    queueSet_cases hset
  · refine ⟨place, h.insert257 hnew, hsame ▸ hdeficit, fun _ _ => rfl, ?_⟩
    intro hle
    omega
  · have hlt : k < 64 := hk ▸ offset_div_lt hdeficit
    refine ⟨_, h.insert hnew hlt, ?_, ?_, ?_⟩
    · rw [hmod]
      exact Nat.mod_lt _ (by decide)
    · intro other hother
      exact update_of_ne hother ..
    · intro _
      refine ⟨fun hmem => hnew (.inl hmem), ?_⟩
      rw [update_self]
      omega

-- ==== unlink

theorem Placed.unlink (name : ι) : Placed (queue.unlink name) turn place :=
  h.sublist (fun _ => erase_sublist) erase_sublist

theorem Placed.has_unlink (name other : ι) :
    (queue.unlink name).Has other ↔ queue.Has other ∧ other ≠ name := by
  simp only [Queue.Has, Queue.unlink, h.nodup257.mem_erase_iff,
    fun slot => (h.nodup slot).mem_erase_iff (a := other) (b := name)]
  constructor
  · rintro (⟨hne, hmem⟩ | ⟨slot, hne, hmem⟩)
    · exact ⟨.inl hmem, hne⟩
    · exact ⟨.inr ⟨slot, hmem⟩, hne⟩
  · rintro ⟨hmem | ⟨slot, hmem⟩, hne⟩
    · exact .inl ⟨hne, hmem⟩
    · exact .inr ⟨slot, hne, hmem⟩

-- ==== queue_pop

omit [DecidableEq ι] in
/-- The next slot with its bit set: no node is left behind. -/
theorem Placed.advance :
    Placed queue.advance (turn + clz queue.bits) place := by
  have hfar : ∀ slot, ∀ other ∈ queue.anchors slot, turn + clz queue.bits ≤
      place other := by
    intro slot other hmem
    have hahead := h.ahead slot other hmem
    have hfirst := clz_le (h.bit slot other hmem)
    omega
  refine { h with offset := ?_, ahead := hfar, bit := ?_ }
  · show (queue.offset + clz queue.bits) % numSlots = _
    rw [h.offset, Nat.mod_add_mod]
  · intro slot other hmem
    have hahead := hfar slot other hmem
    show (queue.bits <<< clz queue.bits).getMsbD _ = true
    rw [BitVec.getMsbD_shiftLeft]
    rw [show place other - (turn + clz queue.bits) + clz queue.bits =
      place other - turn by omega]
    exact h.bit slot other hmem

omit [DecidableEq ι] in
/-- The bit of a slot without nodes is not needed. -/
theorem Placed.clearFirst (hempty : queue.anchors queue.offset = []) :
    Placed queue.clearFirst turn place := by
  refine { h with bit := fun slot other hmem => ?_ }
  have hbit := h.bit slot other hmem
  have hahead := h.ahead slot other hmem
  have hne : place other ≠ turn := by
    intro heq
    have hslot := h.slot slot other hmem
    rw [heq, ← h.offset] at hslot
    have hin : other ∈ queue.anchors slot := hmem
    rw [← hslot, hempty] at hin
    cases hin
  show (queue.bits &&& _).getMsbD _ = true
  rw [BitVec.getMsbD_and, hbit, getMsbD_allButFirst, Bool.true_and,
    Bool.and_eq_true, decide_eq_true_iff, decide_eq_true_iff]
  exact ⟨by omega, lt_of_getMsbD hbit⟩

omit [DecidableEq ι] in
/-- The first node of the slot at `offset`, taken out. -/
theorem Placed.takeFirst {rest : List ι}
    (hfirst : queue.anchors queue.offset = name :: rest) :
    Placed { queue with
      anchors := Function.update queue.anchors queue.offset rest }
      turn place := by
  refine h.sublist (fun slot => ?_) (.refl _)
  by_cases hslot : slot = queue.offset
  · rw [hslot, update_self, hfirst]
    exact sublist_cons_self ..
  · rw [update_of_ne hslot]

end

/-- The number of bits set, which each round of the loop lowers. -/
def Queue.marks (queue : Queue ι) : Nat :=
  ((Finset.range 64).filter fun i => queue.bits.getMsbD i = true).card

omit [DecidableEq ι] in
theorem marks_le (queue : Queue ι) : queue.marks ≤ numSlots :=
  (Finset.card_filter_le ..).trans (by simp [numSlots])

omit [DecidableEq ι] in
theorem getMsbD_round (h : queue.advance.clearFirst.bits.getMsbD i = true) :
    0 < i ∧ queue.bits.getMsbD (i + clz queue.bits) = true := by
  unfold Queue.clearFirst Queue.advance at h
  rw [BitVec.getMsbD_and, getMsbD_allButFirst, BitVec.getMsbD_shiftLeft] at h
  simp only [Bool.and_eq_true, decide_eq_true_iff] at h
  exact ⟨h.2.1, h.1⟩

omit [DecidableEq ι] in
/-- A round clears a bit, so the loop ends. -/
theorem marks_round (hbits : queue.bits ≠ 0) :
    queue.advance.clearFirst.marks < queue.marks := by
  -- moving the marks left after the round back by the shift misses the first
  refine lt_of_le_of_lt
    (Finset.card_le_card_of_injOn (t := ((Finset.range 64).filter fun i =>
      queue.bits.getMsbD i = true).erase (clz queue.bits))
    (fun i => i + clz queue.bits) ?_ ?_) ?_
  · intro i hi
    obtain ⟨-, hbit⟩ := Finset.mem_filter.1 hi
    obtain ⟨hpos, hback⟩ := getMsbD_round hbit
    have hne : i + clz queue.bits ≠ clz queue.bits := by omega
    refine Finset.mem_coe.2 (Finset.mem_erase.2 ⟨hne, ?_⟩)
    exact Finset.mem_filter.2 ⟨Finset.mem_range.2 (lt_of_getMsbD hback), hback⟩
  · intro i _ j _ hij
    exact Nat.add_right_cancel hij
  · refine Finset.card_erase_lt_of_mem (Finset.mem_filter.2 ⟨?_, ?_⟩)
    · exact Finset.mem_range.2 (clz_lt hbits)
    · exact getMsbD_clz hbits

omit [DecidableEq ι] in
/-- The loop ends at the turn of the node it takes out, or has seen that no
slot holds a node. The turn it ends at had its bit set, or has not moved. -/
theorem placed_popSlots {rounds : Nat} {r : Option ι}
    (h : Placed queue turn place) (hrounds : queue.marks ≤ rounds)
    (hpop : popSlots rounds queue = (queue', r)) :
    ∃ turn', turn ≤ turn' ∧ Placed queue' turn' place ∧
      (turn' = turn ∨ queue.bits.getMsbD (turn' - turn) = true) ∧
      queue'.anchor257 = queue.anchor257 ∧
      (r = none → queue'.bits = 0 ∧ queue'.anchors = queue.anchors) ∧
      ∀ name, r = some name → place name = turn' ∧ ∃ rest,
        queue.anchors (turn' % numSlots) = name :: rest ∧
        queue'.anchors = Function.update queue.anchors (turn' % numSlots)
          rest := by
  induction rounds generalizing queue turn with
  | zero =>
    obtain ⟨rfl, rfl⟩ := Prod.mk.inj hpop
    refine ⟨turn, le_refl _, h, .inl rfl, rfl, fun _ => ⟨?_, rfl⟩,
      fun name hname => absurd hname.symm (some_ne_none name)⟩
    by_contra hbits
    have hmark : clz queue.bits ∈ (Finset.range 64).filter fun i =>
        queue.bits.getMsbD i = true :=
      Finset.mem_filter.2 ⟨Finset.mem_range.2 (clz_lt hbits),
        getMsbD_clz hbits⟩
    exact not_lt.2 hrounds (Finset.card_pos.2 ⟨_, hmark⟩)
  | succ rounds ih =>
    unfold popSlots at hpop
    split at hpop
    next hbits =>
      cases hpop
      exact ⟨turn, le_refl _, h, .inl rfl, rfl, fun _ => ⟨hbits, rfl⟩,
        fun name hname => absurd hname.symm (some_ne_none name)⟩
    next hbits =>
      have hadv := h.advance
      have hbit := getMsbD_clz hbits
      dsimp only at hpop
      split at hpop
      next name rest hfirst =>
        cases hpop
        have htaken := hadv.takeFirst hfirst
        refine ⟨turn + clz queue.bits, Nat.le_add_right .., ?_, .inr ?_, ?_,
          (fun hnone => absurd hnone (some_ne_none _)), ?_⟩
        · split
          next hrest =>
            refine htaken.clearFirst ?_
            show Function.update _ _ _ _ = _
            rw [update_self]
            exact List.isEmpty_iff.1 hrest
          · exact htaken
        · rwa [Nat.add_sub_cancel_left]
        · split <;> rfl
        · rintro other ⟨⟩
          have hmem : name ∈ queue.advance.anchors queue.advance.offset :=
            hfirst ▸ mem_cons_self
          refine ⟨?_, rest, ?_, ?_⟩
          · -- the slot served is within 64 of the turn, so is the place
            have hslot := hadv.slot _ _ hmem
            have hplace := lt_of_getMsbD (hadv.bit _ _ hmem)
            have hahead := hadv.ahead _ _ hmem
            rw [hadv.offset] at hslot
            unfold numSlots at hslot
            omega
          · rw [← hadv.offset]
            exact hfirst
          · rw [← hadv.offset]
            split <;> rfl
      next hempty =>
        obtain ⟨turn', hle, hplaced, hturn, h257, hnone, hsome⟩ :=
          ih (hadv.clearFirst hempty)
            (Nat.le_of_lt_succ ((marks_round hbits).trans_le hrounds)) hpop
        refine ⟨turn', by omega, hplaced, .inr ?_, h257, hnone, hsome⟩
        rcases hturn with rfl | hlater
        · rwa [Nat.add_sub_cancel_left]
        · obtain ⟨-, hback⟩ := getMsbD_round hlater
          rwa [show turn' - (turn + clz queue.bits) + clz queue.bits =
            turn' - turn by omega] at hback

/-- What `queue_pop` takes out, and what it leaves. -/
structure Pops (queue queue' : Queue ι) (turn turn' : Nat) (place : ι → Nat)
    (name : ι) : Prop where
  had : queue.Has name
  left : ∀ other, queue'.Has other ↔ queue.Has other ∧ other ≠ name
  served : name ∉ queue.anchor257 → place name = turn'
  sub257 : ∀ other ∈ queue'.anchor257, other ∈ queue.anchor257

omit [DecidableEq ι] in
/-- A pop moves the turn by less than one cycle. -/
theorem placed_queuePop {r : Option ι} (h : Placed queue turn place)
    (hpop : queuePop queue = (queue', r)) :
    ∃ turn', turn ≤ turn' ∧ turn' < turn + numSlots ∧
      Placed queue' turn' place ∧
        (r = none → queueIsEmpty queue' = true ∧ ∀ name, ¬queue.Has name ∧
        ¬queue'.Has name) ∧
      ∀ name, r = some name → Pops queue queue' turn turn' place name := by
  unfold queuePop at hpop
  split at hpop
  next name rest h257 =>
    cases hpop
    have hnodup := nodup_cons.1 (h257 ▸ h.nodup257)
    have hsub : rest.Sublist queue.anchor257 := h257 ▸ sublist_cons_self ..
    have hname : name ∈ queue.anchor257 := h257 ▸ mem_cons_self
    refine ⟨turn, le_refl _, by simp [numSlots],
      h.sublist (fun _ => .refl _) hsub,
      (fun hnone => absurd hnone (some_ne_none _)), ?_⟩
    rintro other ⟨⟩
    refine ⟨.inl hname, fun other => ?_, fun hnot => absurd hname hnot,
      fun _ hmem => hsub.mem hmem⟩
    simp only [Queue.Has, h257, mem_cons]
    constructor
    · rintro (hmem | ⟨slot, hmem⟩)
      · exact ⟨.inl (.inr hmem), fun heq => hnodup.1 (heq ▸ hmem)⟩
      · refine ⟨.inr ⟨slot, hmem⟩, ?_⟩
        rintro rfl
        exact h.apart other hname slot hmem
    · rintro ⟨(heq | hmem) | hmem, hne⟩
      · exact absurd heq hne
      · exact .inl hmem
      · exact .inr hmem
  next h257 =>
    obtain ⟨turn', hle, hplaced, hturn, hsame, hnone, hsome⟩ :=
      placed_popSlots h (marks_le queue) hpop
    refine ⟨turn', hle, ?_, hplaced, ?_, ?_⟩
    · rcases hturn with rfl | hbit
      · simp [numSlots]
      · have := lt_of_getMsbD hbit
        unfold numSlots
        omega
    · intro hr
      obtain ⟨hbits, hanchors⟩ := hnone hr
      have hempty : queueIsEmpty queue' = true :=
        queueIsEmpty_iff.2 ⟨hbits, hsame.trans h257⟩
      refine ⟨hempty, fun name => ?_⟩
      have hnot : ¬queue'.Has name := hplaced.not_has_of_isEmpty hempty
      refine ⟨?_, hnot⟩
      unfold Queue.Has at hnot ⊢
      rwa [hanchors, hsame] at hnot
    · intro name hr
      obtain ⟨hplace, rest, hfirst, hanchors⟩ := hsome name hr
      have hmem : name ∈ queue.anchors (turn' % numSlots) :=
        hfirst ▸ mem_cons_self
      refine ⟨.inr ⟨_, hmem⟩, fun other => ?_, fun _ => hplace,
        fun other hin => hsame ▸ hin⟩
      have hnodup := nodup_cons.1 (hfirst ▸ h.nodup (turn' % numSlots))
      simp only [Queue.Has, hsame, h257, not_mem_nil, false_or, hanchors]
      constructor
      · rintro ⟨slot, hin⟩
        by_cases hslot : slot = turn' % numSlots
        · rw [hslot, update_self] at hin
          exact ⟨⟨_, hfirst ▸ mem_cons_of_mem _ hin⟩, fun heq =>
            hnodup.1 (heq ▸ hin)⟩
        · rw [update_of_ne hslot] at hin
          refine ⟨⟨slot, hin⟩, ?_⟩
          rintro rfl
          exact hslot ((h.slot _ _ hin).symm.trans (h.slot _ _ hmem))
      · rintro ⟨⟨slot, hin⟩, hne⟩
        refine ⟨slot, ?_⟩
        by_cases hslot : slot = turn' % numSlots
        · rw [hslot, hfirst] at hin
          rw [hslot, update_self]
          exact (mem_cons.1 hin).resolve_left hne
        · rwa [update_of_ne hslot]

end H2o.Scheduler
