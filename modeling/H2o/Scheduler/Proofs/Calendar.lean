/-
The queue against what it stands for: a set of linked nodes.

In every state that `queue_set`, `queue_unset` and `queue_pop` lead to, a node
stands in the lists once if it is linked and not at all otherwise, the bits
cover the slots that are not empty, and `queue_pop` takes the node that is
first (`queue_refines`). That `queue_is_empty` sees an empty queue needs more:
`queue_unset` leaves the bit of a slot it empties, until `queue_pop` comes past
it. Where this does not happen no bit is set for an empty slot (`Tight`).
-/
import H2o.Scheduler.Proofs.Fairness

namespace H2o.Scheduler

open Lib List Function

variable {ι : Type} {queue queue' : Queue ι} {turn : Nat} {place : ι → Nat}
  {name : ι} {weight : Nat} {node node' : QueueNode}

-- ==== what is linked

/-- How often a node stands in the lists. -/
def Queue.copies [DecidableEq ι] (queue : Queue ι) (name : ι) : Nat :=
  queue.anchor257.count name + ∑ slot ∈ Finset.range numSlots,
    (queue.anchors slot).count name

/-- The node to be taken first: one of weight 257, or else the head of the
nearest slot that is not empty. -/
def Queue.First (queue : Queue ι) (name : ι) : Prop :=
  queue.anchor257.head? = some name ∨ queue.anchor257 = [] ∧ ∃ k < numSlots,
      (queue.anchors ((queue.offset + k) % numSlots)).head? = some name ∧
      ∀ j < k, queue.anchors ((queue.offset + j) % numSlots) = []

section

variable (h : Placed queue turn place)
include h

/-- The slot of a node at `turn + k`. -/
theorem Placed.slot_eq (k : Nat) :
    (queue.offset + k) % numSlots = (turn + k) % numSlots := by
  rw [h.offset, Nat.mod_add_mod]

/-- The place of a node, from its slot. -/
theorem Placed.place_eq {k : Nat} (hk : k < numSlots)
    (hmem : name ∈ queue.anchors ((queue.offset + k) % numSlots)) :
    place name = turn + k := by
  have hslot := h.slot _ name hmem
  have hahead := h.ahead _ name hmem
  have hnear := lt_of_getMsbD (h.bit _ name hmem)
  rw [h.slot_eq] at hslot
  unfold numSlots at hk hslot
  omega

theorem Placed.copies_eq [DecidableEq ι] (name : ι)
    [Decidable (queue.Has name)] :
    queue.copies name = if queue.Has name then 1 else 0 := by
  have hcount : ∀ slot, slot ≠ place name % numSlots →
      (queue.anchors slot).count name = 0 := by
    intro slot hslot
    exact count_eq_zero.2 fun hmem => hslot (h.slot slot name hmem).symm
  have hsum : ∑ slot ∈ Finset.range numSlots, (queue.anchors slot).count name =
      (queue.anchors (place name % numSlots)).count name :=
    Finset.sum_eq_single _ (fun slot _ => hcount slot) fun hout =>
      absurd (Finset.mem_range.2 (Nat.mod_lt _ (by decide))) hout
  rw [Queue.copies, hsum]
  by_cases h257 : name ∈ queue.anchor257
  · rw [count_eq_one_of_mem h.nodup257 h257,
      count_eq_zero.2 (h.apart name h257 _), if_pos (.inl h257)]
  · rw [count_eq_zero.2 h257, Nat.zero_add]
    split
    next hhas =>
      obtain ⟨slot, hmem⟩ := hhas.resolve_left h257
      rw [h.slot slot name hmem]
      exact count_eq_one_of_mem (h.nodup slot) hmem
    next hnot => exact count_eq_zero.2 fun hmem => hnot (.inr ⟨_, hmem⟩)

/-- What `queue_pop` takes is first. -/
theorem Placed.first_of_pop (hpop : queuePop queue = (queue', some name)) :
    queue.First name := by
  unfold queuePop at hpop
  split at hpop
  next first rest h257 =>
    obtain ⟨rfl, hfirst⟩ := Prod.mk.inj hpop
    exact .inl (by rw [h257]; exact hfirst)
  next h257 =>
    obtain ⟨turn', hle, hplaced, hturn, -, -, hsome⟩ :=
      placed_popSlots h (marks_le queue) hpop
    obtain ⟨hplace, rest, hhead, hanchors⟩ := hsome name rfl
    have hk : turn' - turn < numSlots := by
      rcases hturn with rfl | hbit
      · simp [numSlots]
      · exact lt_of_getMsbD hbit
    refine .inr ⟨h257, turn' - turn, hk, ?_, fun j hj => ?_⟩
    · rw [h.slot_eq, Nat.add_sub_cancel' hle, hhead, head?_cons]
    · -- a node before the turn would be left behind
      refine eq_nil_iff_forall_not_mem.2 fun other hmem => ?_
      have hother := h.place_eq (hj.trans hk) hmem
      have hslot : (queue.offset + j) % numSlots ≠ turn' % numSlots := by
        rw [h.slot_eq]
        unfold numSlots at *
        omega
      have hin : other ∈ queue'.anchors ((queue.offset + j) % numSlots) := by
        rwa [hanchors, update_of_ne hslot]
      have := hplaced.ahead _ other hin
      omega

end

-- ==== tight queues

/-- No bit is set for an empty slot. -/
def Tight (queue : Queue ι) : Prop :=
  ∀ k, queue.bits.getMsbD k = true →
    queue.anchors ((queue.offset + k) % numSlots) ≠ []

theorem Tight.isEmpty (h : Tight queue) (hnone : ∀ name, ¬queue.Has name) :
    queueIsEmpty queue = true := by
  refine queueIsEmpty_iff.2 ⟨?_, ?_⟩
  · by_contra hbits
    obtain ⟨name, hmem⟩ := exists_mem_of_ne_nil _ (h _ (getMsbD_clz hbits))
    exact hnone name (.inr ⟨_, hmem⟩)
  · exact eq_nil_iff_forall_not_mem.2 fun name hmem => hnone name (.inl hmem)

theorem Tight.queueSet (h : Tight queue) (hdeficit : node.deficit < 65536)
    (hset : queueSet queue name node weight = .ok (queue', node')) :
    Tight queue' := by
  obtain ⟨-, -, ⟨-, -, rfl⟩ | ⟨-, -, -, k, hk, rfl⟩⟩ := queueSet_cases hset
  · exact h
  · intro i hbit
    have hlt : k < 64 := hk ▸ offset_div_lt hdeficit
    dsimp only at hbit ⊢
    rw [update_apply]
    split
    · exact append_ne_nil_of_right_ne_nil _ (cons_ne_nil _ _)
    next hslot =>
      rw [BitVec.getMsbD_or, getMsbD_slotBit hlt, Bool.or_eq_true,
        decide_eq_true_iff] at hbit
      rcases hbit with hbit | rfl
      · exact h i hbit
      · exact absurd rfl hslot

theorem Tight.advance (h : Tight queue) : Tight queue.advance := by
  intro k hbit
  unfold Queue.advance at hbit ⊢
  rw [BitVec.getMsbD_shiftLeft] at hbit
  have hne := h _ hbit
  rwa [Nat.mod_add_mod, Nat.add_assoc, Nat.add_comm (clz _)]

variable [DecidableEq ι]

/-- Another node stays in the slot. -/
theorem Tight.unlink (h : Tight queue)
    (hstays : ∀ slot < numSlots, name ∈ queue.anchors slot →
      1 < (queue.anchors slot).length) : Tight (queue.unlink name) := by
  intro k hbit
  have hne := h k hbit
  show (queue.anchors ((queue.offset + k) % numSlots)).erase name ≠ []
  by_cases hmem : name ∈ queue.anchors ((queue.offset + k) % numSlots)
  · have hlen := hstays _ (Nat.mod_lt _ (by decide)) hmem
    have herase := length_erase_of_mem hmem
    exact ne_nil_of_length_pos (by omega)
  · rwa [erase_of_not_mem hmem]

omit [DecidableEq ι] in
/-- The bit of a slot that is emptied is cleared. -/
theorem Tight.takeFirst (h : Tight queue) {rest : List ι} {taken : Queue ι}
    (htaken : taken = { queue with
      anchors := Function.update queue.anchors queue.offset rest }) :
    Tight (if rest.isEmpty then taken.clearFirst else taken) := by
  subst htaken
  intro k hbit
  obtain ⟨hold, hfirst⟩ : queue.bits.getMsbD k = true ∧
      (k = 0 → rest ≠ []) := by
    split at hbit
    next =>
      unfold Queue.clearFirst at hbit
      rw [BitVec.getMsbD_and, getMsbD_allButFirst] at hbit
      simp only [Bool.and_eq_true, decide_eq_true_iff] at hbit
      exact ⟨hbit.1, fun hzero => absurd hbit.2.1 (by omega)⟩
    next hrest => exact ⟨hbit, fun _ => by simpa using hrest⟩
  have hnear := lt_of_getMsbD hold
  have hslot : Function.update queue.anchors queue.offset rest
      ((queue.offset + k) % numSlots) ≠ [] := by
    rw [update_apply]
    split
    next heq =>
      refine hfirst ?_
      unfold numSlots at heq
      omega
    next => exact h k hold
  split <;> exact hslot

omit [DecidableEq ι] in
theorem Tight.queuePop {r : Option ι} (h : Tight queue)
    (hpop : queuePop queue = (queue', r)) : Tight queue' := by
  unfold Scheduler.queuePop at hpop
  split at hpop
  · exact (Prod.mk.inj hpop).1 ▸ h
  rw [numSlots, popSlots] at hpop
  split at hpop
  · exact (Prod.mk.inj hpop).1 ▸ h
  next hbits =>
    dsimp only at hpop
    split at hpop
    next name rest hfirst =>
      cases hpop
      exact h.advance.takeFirst rfl
    next hempty =>
      -- the bit would not be set
      exact absurd hempty (h _ (getMsbD_clz hbits))

-- ==== runs

namespace Drr

variable {s s' : Drr ι}

/-- No `queue_unset` of the last node in a slot. -/
def Event.LeavesSlot (s : Drr ι) : Event ι → Prop
  | .unset name => ∀ slot < numSlots, name ∈ s.queue.anchors slot →
      1 < (s.queue.anchors slot).length
  | _ => True

instance (s : Drr ι) (e : Event ι) : Decidable (e.LeavesSlot s) := by
  cases e <;> (unfold Event.LeavesSlot; infer_instance)

theorem step_tight {e : Event ι} (h : s.Sound turn place)
    (htight : Tight s.queue) (hleaves : e.LeavesSlot s)
    (hstep : s.step e = .ok s') : Tight s'.queue := by
  cases e with
  | set name weight =>
    obtain ⟨queue, node, hset, rfl⟩ := put_eq hstep
    exact htight.queueSet (h.deficit name) hset
  | unset name =>
    obtain ⟨node, -, hstep⟩ := except_bind_eq_ok.1 hstep
    cases hstep
    exact htight.unlink hleaves
  | pop again =>
    simp only [step] at hstep
    split at hstep
    next queue hpop =>
      cases hstep
      exact htight.queuePop hpop
    next queue name hpop =>
      have htaken : Tight (s.take queue name).queue := htight.queuePop hpop
      split at hstep
      · cases hstep
        exact htaken
      · obtain ⟨queue', node, hset, rfl⟩ := put_eq hstep
        refine htaken.queueSet ?_ hset
        show (Function.update s.nodes name _ name).deficit < 65536
        rw [update_self]
        exact h.deficit name

/-- The queue in any state of any run. The bits cover the slots that are not
empty, and a slot is found for every weight. A node stands in the lists once
if it is linked. `queue_pop` takes the first node and leaves the others, or
there is none. A queue that is empty by its bits has no node linked, and the
converse holds if no `queue_unset` emptied a slot. -/
theorem queue_refines {s₀ : Drr ι} (hs : s₀.Fresh) {events : List (Event ι)}
    (hrun : events.foldlM step s₀ = .ok s) :
    (∀ k < numSlots, s.queue.anchors ((s.queue.offset + k) % numSlots) ≠ [] →
      s.queue.bits.getMsbD k = true) ∧
    (∀ name weight, (offsetOf weight + (s.nodes name).deficit) / 65536 ≤ 63) ∧
    (∀ name, s.queue.copies name = if (s.nodes name).linked then 1 else 0) ∧
    (∀ queue r, queuePop s.queue = (queue, r) →
      (r = none → ∀ name, (s.nodes name).linked = false) ∧
      ∀ name, r = some name → s.queue.First name ∧ ∀ other,
        queue.copies other =
          if other = name then 0 else s.queue.copies other) ∧
    (queueIsEmpty s.queue = true → ∀ name, (s.nodes name).linked = false) ∧
    (Meets step (fun s e => e.LeavesSlot s) s₀ events →
      (∀ name, (s.nodes name).linked = false) →
      queueIsEmpty s.queue = true) := by
  classical
  obtain ⟨turn, place, h⟩ : ∃ turn place, s.Sound turn place := by
    refine run_keeps (I := fun s : Drr ι => ∃ turn place, s.Sound turn place)
      ?_ ⟨0, fun _ => 0, hs.sound _⟩ hrun
    rintro s e s' ⟨turn, place, h⟩ hstep
    obtain ⟨turn', place', -, -, h', -⟩ := step_sound h hstep
    exact ⟨turn', place', h'⟩
  have hunlinked : ∀ {name}, ¬s.queue.Has name → (s.nodes name).linked =
      false := fun hnot =>
    Bool.eq_false_iff.2 fun hlinked => hnot ((h.linked _).1 hlinked)
  refine ⟨fun k hk hne => ?_, fun name weight => ?_,
    fun name => ?_, fun queue r hpop => ⟨?_, ?_⟩, fun hempty name =>
    hunlinked (h.placed.not_has_of_isEmpty hempty), fun hmeets hnone => ?_⟩
  · obtain ⟨name, hmem⟩ := exists_mem_of_ne_nil _ hne
    have hbit := h.placed.bit _ name hmem
    rwa [h.placed.place_eq hk hmem, Nat.add_sub_cancel_left] at hbit
  · exact Nat.le_of_lt_succ (offset_div_lt (h.deficit name))
  · rw [h.placed.copies_eq]
    simp only [← h.linked]
  · obtain ⟨-, -, -, -, hempty, -⟩ := placed_queuePop h.placed hpop
    exact fun hr name => hunlinked ((hempty hr).2 name).1
  · rintro name rfl
    obtain ⟨turn', -, -, hplaced, -, hpops⟩ := placed_queuePop h.placed hpop
    refine ⟨h.placed.first_of_pop hpop, fun other => ?_⟩
    rw [hplaced.copies_eq, h.placed.copies_eq]
    simp only [(hpops name rfl).left]
    by_cases hother : other = name <;> simp [hother]
  · obtain ⟨-, -, -, htight⟩ : ∃ turn place, s.Sound turn place ∧
        Tight s.queue := by
      refine run_invariant (I := fun s : Drr ι => ∃ turn place,
        s.Sound turn place ∧ Tight s.queue) ?_
        ⟨0, fun _ => 0, hs.sound _,
          hs.queue ▸ (fun _ hbit => absurd (hbit.symm.trans
            BitVec.getMsbD_zero) (by decide))⟩ hmeets hrun
      rintro s e s' ⟨turn, place, h, htight⟩ hleaves hstep
      obtain ⟨turn', place', -, -, h', -⟩ := step_sound h hstep
      exact ⟨turn', place', h', step_tight h htight hleaves hstep⟩
    refine htight.isEmpty fun name hhas => ?_
    rw [← h.linked, hnone] at hhas
    cases hhas

theorem queue_refines_pair :
    ∃ s, List.foldlM step (⟨queueInit, fun _ => {}, []⟩ : Drr Nat)
        [.set 0 16, .set 1 16, .unset 0, .pop fun _ => none] = .ok s ∧
      queueIsEmpty s.queue = true := by
  have hfresh : Fresh (⟨queueInit, fun _ => {}, []⟩ : Drr Nat) :=
    ⟨rfl, fun _ => rfl, fun _ => Nat.zero_lt_succ _, rfl⟩
  refine ⟨_, rfl, ?_⟩
  obtain ⟨-, -, -, -, -, hempty⟩ := queue_refines hfresh
    (show foldlM step _ [.set 0 16, .set 1 16, .unset 0, .pop fun _ => none] =
      .ok _ from rfl)
  refine hempty (by decide) fun name => ?_
  rcases name with _ | _ | n
  · rfl
  · rfl
  · rfl

/-- The bit of a slot emptied by `queue_unset` stays: no node is linked, and
the queue does not count as empty. -/
theorem not_isEmpty_after_unset :
    ∃ s, List.foldlM step (⟨queueInit, fun _ => {}, []⟩ : Drr Nat)
    [.set 0 16, .unset 0] = .ok s ∧
      (∀ name, (s.nodes name).linked = false) ∧
      queueIsEmpty s.queue = false := by
  refine ⟨_, rfl, fun name => ?_, rfl⟩
  cases name with
  | zero => rfl
  | succ n => rfl

end Drr

end H2o.Scheduler
