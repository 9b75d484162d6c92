/-
Two nodes that are always set again when they are popped are served in
proportion to their weights.

A queue and its nodes are a machine of its own here: nodes are set, unset and
popped, and a popped node may be set again at once, as `proceed` does with a
reference that stays active. Since a node is set at the turn at which it was
popped, with the deficit it had then, `place * 65536 + deficit` grows by the
offset of its weight at each pop (`Tracks`). No node is ever behind the turn,
and none is popped ahead of it, so the places of two such nodes stay close.
-/
import H2o.Lib.Run
import H2o.Scheduler.Proofs.Queue

namespace H2o.Scheduler

open Lib List Function Except

-- ==== the machine

/-- A queue, its nodes, and the names of the nodes popped, latest first. -/
structure Drr (ι : Type) where
  queue : Queue ι
  nodes : ι → QueueNode
  popped : List ι

namespace Drr

inductive Event (ι : Type) where
  | set (name : ι) (weight : Nat)
  | unset (name : ι)
  /-- `queue_pop`, and what of the popped node is set again right after -/
  | pop (again : ι → Option Nat)

section

variable {ι : Type} [DecidableEq ι]

def put (s : Drr ι) (name : ι) (weight : Nat) : Except Fault (Drr ι) := do
  let (queue, node) ← queueSet s.queue name (s.nodes name) weight
  .ok { s with queue, nodes := Function.update s.nodes name node }

/-- The node is out of the queue, and the pop is recorded. -/
def take (s : Drr ι) (queue : Queue ι) (name : ι) : Drr ι :=
  { queue
    nodes := Function.update s.nodes name { s.nodes name with linked := false }
    popped := name :: s.popped }

def step (s : Drr ι) : Event ι → Except Fault (Drr ι)
  | .set name weight => s.put name weight
  | .unset name => do
      let node ← queueUnset (s.nodes name)
      .ok { s with
        queue := s.queue.unlink name
        nodes := Function.update s.nodes name node }
  | .pop again =>
    match queuePop s.queue with
    | (queue, none) => .ok { s with queue }
    | (queue, some name) =>
      match again name with
      | none => .ok (s.take queue name)
      | some weight => (s.take queue name).put name weight

end

variable {ι : Type} {s s' : Drr ι} {turn turn' : Nat} {place place' : ι → Nat}
  {name : ι} {weight start : Nat}

/-- A queue that was just set up, and nodes that are not in it yet. -/
structure Fresh (s : Drr ι) : Prop where
  queue : s.queue = queueInit
  unlinked : ∀ name, (s.nodes name).linked = false
  deficit : ∀ name, (s.nodes name).deficit < 65536
  popped : s.popped = []

/-- The event does not set or unset the node. -/
def Event.Leaves (name : ι) : Event ι → Prop
  | .set other _ => other ≠ name
  | .unset other => other ≠ name
  | .pop _ => True

/-- The event leaves the node alone, but sets it again if it pops it. -/
def Event.Keeps (name : ι) (weight : Nat) : Event ι → Prop
  | .set other _ => other ≠ name
  | .unset other => other ≠ name
  | .pop again => again name = some weight

-- ==== what steps keep

/-- The nodes agree with the queue. -/
structure Sound (s : Drr ι) (turn : Nat) (place : ι → Nat) : Prop where
  placed : Placed s.queue turn place
  linked : ∀ name, (s.nodes name).linked = true ↔ s.queue.Has name
  deficit : ∀ name, (s.nodes name).deficit < 65536

/-- A node that waits in a slot: set at `start` first, in units of 1/65536 of
a slot, it has moved by one offset for that and by one for each pop since. -/
structure Tracks (s : Drr ι) (turn : Nat) (place : ι → Nat) (name : ι)
    (weight start : Nat) (pops : Nat) : Prop where
  waits : s.queue.Has name
  inSlot : name ∉ s.queue.anchor257
  tag : place name * 65536 + (s.nodes name).deficit =
    start + (pops + 1) * offsetOf weight
  passed : (start + pops * offsetOf weight) / 65536 ≤ turn

/-- A step that does not concern the node. -/
structure Untouched (s s' : Drr ι) (place place' : ι → Nat) (name : ι) :
    Prop where
  place : place' name = place name
  node : s'.nodes name = s.nodes name
  inSlot : name ∈ s'.queue.anchor257 → name ∈ s.queue.anchor257
  has : s'.queue.Has name ↔ s.queue.Has name

theorem Untouched.trans {s'' : Drr ι} {place'' : ι → Nat}
    (h : Untouched s s' place place' name)
    (h' : Untouched s' s'' place' place'' name) :
    Untouched s s'' place place'' name where
  place := h'.place.trans h.place
  node := h'.node.trans h.node
  inSlot hmem := h.inSlot (h'.inSlot hmem)
  has := h'.has.trans h.has

theorem Tracks.untouched {pops : Nat}
    (h : s.Tracks turn place name weight start pops)
    (hsame : Untouched s s' place place' name) (hturn : turn ≤ turn') :
    s'.Tracks turn' place' name weight start pops where
  waits := hsame.has.2 h.waits
  inSlot hmem := h.inSlot (hsame.inSlot hmem)
  tag := by
    rw [hsame.place, hsame.node]
    exact h.tag
  passed := h.passed.trans hturn

theorem Fresh.sound (h : s.Fresh) (place : ι → Nat) : s.Sound 0 place where
  placed := h.queue ▸ placed_init place
  linked name := by
    rw [h.unlinked name, h.queue]
    exact ⟨nofun, fun hhas => absurd hhas (not_has_init name)⟩
  deficit := h.deficit

variable [DecidableEq ι]

theorem put_eq {s' : Drr ι} (h : s.put name weight = .ok s') :
    ∃ queue node, queueSet s.queue name (s.nodes name) weight =
      .ok (queue, node) ∧
      s' = { s with queue, nodes := Function.update s.nodes name node } := by
  obtain ⟨⟨queue, node⟩, hset, h⟩ := except_bind_eq_ok.1 h
  exact ⟨queue, node, hset, (ok.inj h).symm⟩

/-- Setting a node, seen from the node and from all others. -/
theorem Sound.put (h : s.Sound turn place)
    (hput : s.put name weight = .ok s') :
    s'.popped = s.popped ∧ s'.queue.Has name ∧ ∃ place', s'.Sound turn place' ∧
        (∀ other, other ≠ name → Untouched s s' place place' other) ∧
        (weight ≤ 256 → name ∉ s'.queue.anchor257 ∧
          place' name * 65536 + (s'.nodes name).deficit =
            turn * 65536 + (s.nodes name).deficit + offsetOf weight) := by
  obtain ⟨queue, node, hset, rfl⟩ := put_eq hput
  obtain ⟨hunlinked, hlinked, -⟩ := queueSet_cases hset
  have hnew : ¬s.queue.Has name := by
    rw [← h.linked, hunlinked]
    decide
  obtain ⟨place', hplaced, hdeficit, hothers, hself⟩ :=
    placed_queueSet h.placed hnew (h.deficit name) hset
  refine ⟨rfl, (has_queueSet hset).2 (.inl rfl), place',
    ⟨hplaced, ?_, ?_⟩, ?_, ?_⟩
  · intro other
    dsimp only
    rw [has_queueSet hset]
    by_cases hother : other = name
    · rw [hother, update_self]
      exact ⟨fun _ => .inl rfl, fun _ => hlinked⟩
    · rw [update_of_ne hother, h.linked]
      exact ⟨.inr, fun hhas => hhas.resolve_left hother⟩
  · intro other
    dsimp only
    by_cases hother : other = name
    · rwa [hother, update_self]
    · rw [update_of_ne hother]
      exact h.deficit other
  · intro other hother
    refine ⟨hothers other hother, update_of_ne hother .., fun hmem => ?_, ?_⟩
    · obtain ⟨-, -, ⟨-, -, rfl⟩ | ⟨-, -, -, k, -, rfl⟩⟩ := queueSet_cases hset
      · simpa [hother] using hmem
      · exact hmem
    · rw [has_queueSet hset]
      exact ⟨fun hhas => hhas.resolve_left hother, .inr⟩
  · intro hweight
    dsimp only
    rw [update_self]
    exact hself hweight

/-- A node taken out of the queue, whatever becomes of its deficit. -/
theorem Sound.out (h : s.Sound turn place) {queue : Queue ι}
    {popped : List ι} (hplaced : Placed queue turn' place)
    (hleft : ∀ other, queue.Has other ↔ s.queue.Has other ∧ other ≠ name) :
    Sound ⟨queue, Function.update s.nodes name
      { s.nodes name with linked := false }, popped⟩ turn' place where
  placed := hplaced
  linked other := by
    dsimp only
    rw [hleft]
    by_cases hother : other = name
    · rw [hother, update_self]
      exact ⟨nofun, fun hhas => absurd rfl hhas.2⟩
    · rw [update_of_ne hother, h.linked]
      exact ⟨fun hhas => ⟨hhas, hother⟩, And.left⟩
  deficit other := by
    dsimp only
    by_cases hother : other = name
    · rw [hother, update_self]
      exact h.deficit name
    · rw [update_of_ne hother]
      exact h.deficit other

theorem untouched_out {queue : Queue ι} {popped : List ι} {other : ι}
    {node : QueueNode} (h257 : ∀ m ∈ queue.anchor257, m ∈ s.queue.anchor257)
    (hleft : ∀ m, queue.Has m ↔ s.queue.Has m ∧ m ≠ name)
    (hother : other ≠ name) :
    Untouched s ⟨queue, Function.update s.nodes name node,
      popped⟩ place place other where
  place := rfl
  node := update_of_ne hother ..
  inSlot := h257 other
  has := (hleft other).trans ⟨And.left, fun hhas => ⟨hhas, hother⟩⟩

omit [DecidableEq ι] in
/-- The popped node set again: it moves on by the offset of its weight. -/
theorem Tracks.again {pops : Nat}
    (h : s.Tracks turn place name weight start pops)
    (hdeficit : (s.nodes name).deficit < 65536) (hserved : place name = turn')
    (hhas : s'.queue.Has name) (hslot : name ∉ s'.queue.anchor257)
    (htag : place' name * 65536 + (s'.nodes name).deficit =
      turn' * 65536 + (s.nodes name).deficit + offsetOf weight) :
    s'.Tracks turn' place' name weight start (pops + 1) := by
  have hold := h.tag
  refine ⟨hhas, hslot, ?_, ?_⟩
  · rw [htag, Nat.succ_mul, ← add_assoc, ← hold, hserved]
  · rw [← hold, hserved]
    generalize offsetOf weight = o at *
    omega

/-- One step: the turn moves on by less than a round, a node out of the queue
that the step does not set stays out, and one that the step keeps is tracked
with its pops counted. -/
theorem step_sound {e : Event ι} (h : s.Sound turn place)
    (hstep : s.step e = .ok s') :
    ∃ turn' place', turn ≤ turn' ∧ turn' < turn + numSlots ∧
      s'.Sound turn' place' ∧
        (∀ name, e.Leaves name → ¬s.queue.Has name →
        ¬s'.queue.Has name ∧ s'.popped.count name = s.popped.count name) ∧
      ∀ name weight start, weight ≤ 256 → e.Keeps name weight →
        s.Tracks turn place name weight start (s.popped.count name) →
        s'.Tracks turn' place' name weight start (s'.popped.count name) := by
  have hturn : turn < turn + numSlots := by simp [numSlots]
  cases e with
  | set other w =>
    obtain ⟨hpopped, -, place', hsound, hothers, -⟩ := h.put hstep
    refine ⟨turn, place', le_refl _, hturn, hsound, ?_, ?_⟩
    · intro name hleaves hout
      rw [(hothers name (Ne.symm hleaves)).has, hpopped]
      exact ⟨hout, rfl⟩
    · intro name weight start _ hkeeps htracks
      rw [hpopped]
      exact htracks.untouched (hothers name (Ne.symm hkeeps)) (le_refl _)
  | unset other =>
    obtain ⟨node, hnode, hstep⟩ := except_bind_eq_ok.1 hstep
    cases hstep
    unfold queueUnset at hnode
    split at hnode
    · cases hnode
      have hleft := fun m => h.placed.has_unlink other m
      refine ⟨turn, place, le_refl _, hturn,
        h.out (h.placed.unlink other) hleft, ?_, ?_⟩
      · intro name _ hout
        exact ⟨fun hhas => hout ((hleft name).1 hhas).1, rfl⟩
      · intro name weight start _ hkeeps htracks
        exact htracks.untouched (untouched_out
          (fun m hmem => mem_of_mem_erase hmem) hleft (Ne.symm hkeeps))
          (le_refl _)
    · cases hnode
  | pop again =>
    simp only [step] at hstep
    split at hstep
    · rename_i queue hpop
      cases hstep
      obtain ⟨turn', hle, hlt, hplaced, hnone, -⟩ :=
        placed_queuePop h.placed hpop
      obtain ⟨-, hempty⟩ := hnone rfl
      refine ⟨turn', place, hle, hlt, ⟨hplaced, fun name => ?_, h.deficit⟩, ?_,
        ?_⟩
      · rw [h.linked]
        exact ⟨fun hhas => absurd hhas (hempty name).1, fun hhas =>
          absurd hhas (hempty name).2⟩
      · intro name _ _
        exact ⟨(hempty name).2, rfl⟩
      · intro name weight start _ _ htracks
        exact absurd htracks.waits (hempty name).1
    · rename_i queue other hpop
      obtain ⟨turn', hle, hlt, hplaced, -, hsome⟩ :=
        placed_queuePop h.placed hpop
      have hpops := hsome other rfl
      have htaken : (s.take queue other).Sound turn' place :=
        h.out hplaced hpops.left
      have hcount : ∀ name, name ≠ other → (other :: s.popped).count name =
          s.popped.count name :=
        fun name hname => count_cons_of_ne (Ne.symm hname)
      split at hstep
      · rename_i hagain
        cases hstep
        refine ⟨turn', place, hle, hlt, htaken, ?_, ?_⟩
        · intro name _ hout
          have hname : name ≠ other := fun heq => hout (heq ▸ hpops.had)
          exact ⟨fun hhas => hout ((hpops.left name).1 hhas).1,
            hcount name hname⟩
        · intro name weight start _ hkeeps htracks
          have hname : name ≠ other := by
            rintro rfl
            exact Option.some_ne_none _ (hkeeps.symm.trans hagain)
          have hsame : (s.take queue other).popped.count name =
              s.popped.count name := hcount name hname
          rw [hsame]
          exact htracks.untouched (untouched_out hpops.sub257 hpops.left hname)
            hle
      · rename_i w hagain
        obtain ⟨hpopped, hhas, place', hsound, hothers, hself⟩ :=
          htaken.put hstep
        have huntouched : ∀ name, name ≠ other →
            Untouched s s' place place' name := fun name hname =>
          (untouched_out hpops.sub257 hpops.left hname).trans
          (hothers name hname)
        refine ⟨turn', place', hle, hlt, hsound, ?_, ?_⟩
        · intro name _ hout
          have hname : name ≠ other := fun heq => hout (heq ▸ hpops.had)
          rw [(huntouched name hname).has, hpopped]
          exact ⟨hout, hcount name hname⟩
        · intro name weight start hweight hkeeps htracks
          by_cases hname : name = other
          · subst hname
            obtain rfl : w = weight :=
              Option.some.inj (hagain.symm.trans hkeeps)
            obtain ⟨hslot, htag⟩ := hself hweight
            have hdeficit : ((s.take queue name).nodes name).deficit =
                (s.nodes name).deficit := by
              show (Function.update s.nodes name _ name).deficit = _
              rw [update_self]
            rw [hdeficit] at htag
            have hcounted : (s.take queue name).popped.count name =
                s.popped.count name + 1 := count_cons_self
            rw [hpopped, hcounted]
            exact htracks.again (h.deficit name) (hpops.served htracks.inSlot)
              hhas hslot htag
          · rw [hpopped]
            have hsame : (s.take queue other).popped.count name =
                s.popped.count name := hcount name hname
            rw [hsame]
            exact htracks.untouched (huntouched name hname) hle

-- ==== fairness

omit [DecidableEq ι] in
/-- Two nodes set at one turn, after any number of pops of each. -/
theorem Tracks.fair {name₁ name₂ : ι} {weight₁ weight₂ start₁ start₂ : Nat}
    {pops₁ pops₂ : Nat} (h : s.Sound turn place)
    (h₁ : s.Tracks turn place name₁ weight₁ start₁ pops₁)
    (h₂ : s.Tracks turn place name₂ weight₂ start₂ pops₂)
    (hstart : start₂ < start₁ + 65536) :
    (pops₁ * offsetOf weight₁ : Int) - pops₂ * offsetOf weight₂ <
      offsetOf weight₂ + 2 * 65536 := by
  have hpassed := h₁.passed
  have htag := h₂.tag
  have hdeficit := h.deficit name₂
  -- the first is not ahead of the turn, the second not behind it
  have hahead : turn ≤ place name₂ := by
    rcases h₂.waits with hmem | ⟨slot, hmem⟩
    · exact absurd hmem h₂.inSlot
    · exact h.placed.ahead slot name₂ hmem
  rw [Nat.succ_mul] at htag
  have hcast₁ : (pops₁ * offsetOf weight₁ : Int) =
      ((pops₁ * offsetOf weight₁ : Nat) : Int) := by push_cast; rfl
  have hcast₂ : (pops₂ * offsetOf weight₂ : Int) =
      ((pops₂ * offsetOf weight₂ : Nat) : Int) := by push_cast; rfl
  rw [hcast₁, hcast₂]
  generalize pops₁ * offsetOf weight₁ = x at *
  generalize pops₂ * offsetOf weight₂ = y at *
  generalize offsetOf weight₂ = o at *
  omega

/-- A node that has not been set yet. -/
def Waiting (s : Drr ι) (name : ι) : Prop :=
  ¬s.queue.Has name ∧ s.popped.count name = 0

theorem Waiting.step (h : s.Waiting name)
    (hstep : ¬s.queue.Has name → ¬s'.queue.Has name ∧
      s'.popped.count name = s.popped.count name) : s'.Waiting name :=
  ⟨(hstep h.1).1, (hstep h.1).2.trans h.2⟩

/-- The first set of a node starts its track at the turn. -/
theorem Sound.tracks_put (h : s.Sound turn place) (hnew : s.Waiting name)
    (hweight : weight ≤ 256) (hput : s.put name weight = .ok s') :
    ∃ place', s'.Sound turn place' ∧
      (∀ other, other ≠ name → Untouched s s' place place' other) ∧
      s'.popped = s.popped ∧
      s'.Tracks turn place' name weight
        (turn * 65536 + (s.nodes name).deficit) (s'.popped.count name) := by
  obtain ⟨hpopped, hhas, place', hsound, hothers, hself⟩ := h.put hput
  obtain ⟨hslot, htag⟩ := hself hweight
  have hdeficit := h.deficit name
  refine ⟨place', hsound, hothers, hpopped, hhas, hslot, ?_, ?_⟩
  · rw [htag, hpopped, hnew.2, zero_add, one_mul]
  · rw [hpopped, hnew.2]
    omega

/-- Weighted fairness. `A` and `B` are first set while the queue is at one
offset and are set again whenever they are popped; other nodes come and go.
After any number of pops the distances they have moved differ by less than
one offset of the one that is behind and two slots. -/
theorem popped_fair {A B : ι} (hne : A ≠ B) {a b : Nat} (ha : a ≤ 256)
    (hb : b ≤ 256) (hs : s.Fresh) {before between after : List (Event ι)}
    (hbefore : ∀ e ∈ before, e.Leaves A ∧ e.Leaves B)
    (hbetween : ∀ e ∈ between, e.Keeps A a ∧ e.Leaves B)
    (hafter : ∀ e ∈ after, e.Keeps A a ∧ e.Keeps B b)
    (hoffset : ∀ t, before.foldlM step s = .ok t →
      Meets step (fun t' _ => t'.queue.offset = t.queue.offset) t
        (.set A a :: (between ++ [.set B b])))
    (hrun : List.foldlM step s
      (before ++ (.set A a :: (between ++ [.set B b])) ++ after) = .ok s') :
    (s'.popped.count A * offsetOf a : Int) - s'.popped.count B * offsetOf b <
        offsetOf b + 2 * 65536 ∧
      (s'.popped.count B * offsetOf b : Int) - s'.popped.count A * offsetOf a <
        offsetOf a + 2 * 65536 := by
  obtain ⟨s₃, hrun, hrun₃⟩ := foldlM_except_append.1 hrun
  obtain ⟨s₁, hrun₁, hrun⟩ := foldlM_except_append.1 hrun
  have hmeets := hoffset s₁ hrun₁
  -- before the first set neither node is in the queue
  obtain ⟨turn₁, place₁, hsound₁, hA₁, hB₁⟩ : ∃ turn place,
      s₁.Sound turn place ∧ s₁.Waiting A ∧ s₁.Waiting B := by
    refine run_invariant (I := fun s : Drr ι => ∃ turn place,
      s.Sound turn place ∧ s.Waiting A ∧ s.Waiting B) ?_
      ⟨0, fun _ => 0, hs.sound _, ?_, ?_⟩ (meets_of_forall hbefore s) hrun₁
    · rintro s e s' ⟨turn, place, hsound, hA, hB⟩ ⟨hleavesA, hleavesB⟩ hstep
      obtain ⟨turn', place', -, -, hsound', hout, -⟩ := step_sound hsound hstep
      exact ⟨turn', place', hsound', hA.step (hout A hleavesA),
        hB.step (hout B hleavesB)⟩
    · exact ⟨hs.queue ▸ not_has_init A, hs.popped ▸ rfl⟩
    · exact ⟨hs.queue ▸ not_has_init B, hs.popped ▸ rfl⟩
  -- `A` is set, and the offset stays until `B` is
  obtain ⟨s₂, hput, hrun⟩ := foldlM_except_cons_ok.1 hrun
  obtain ⟨place₂, hsound₂, hothers₂, hpopped₂, htracks₂⟩ :=
    hsound₁.tracks_put hA₁ ha hput
  have hB₂ : s₂.Waiting B :=
    ⟨fun hhas => hB₁.1 ((hothers₂ B hne.symm).has.1 hhas), hpopped₂ ▸ hB₁.2⟩
  obtain ⟨s₂', hrun₂, hrun⟩ := foldlM_except_append.1 hrun
  obtain ⟨hmeets₂, hlast⟩ := Meets.of_append (hmeets.2 s₂ hput)
  generalize hstart : turn₁ * 65536 + (s₁.nodes A).deficit = start at htracks₂
  have hnear : ∀ {t : Drr ι} {turn place}, t.Sound turn place →
      turn₁ ≤ turn → turn < turn₁ + numSlots →
      t.queue.offset = s₁.queue.offset → turn = turn₁ := by
    intro t turn place hsound hle hlt hsame
    rw [hsound.placed.offset, hsound₁.placed.offset] at hsame
    unfold numSlots at hlt hsame
    omega
  obtain ⟨turn, place, hsound, hle, hlt, htracks, hB⟩ : ∃ turn place,
      s₂'.Sound turn place ∧ turn₁ ≤ turn ∧ turn < turn₁ + numSlots ∧
      s₂'.Tracks turn place A a start (s₂'.popped.count A) ∧
        s₂'.Waiting B := by
    refine run_invariant (I := fun s : Drr ι => ∃ turn place,
      s.Sound turn place ∧ turn₁ ≤ turn ∧ turn < turn₁ + numSlots ∧
      s.Tracks turn place A a start (s.popped.count A) ∧ s.Waiting B) ?_
      ⟨turn₁, place₂, hsound₂, le_refl _, by simp [numSlots], htracks₂, hB₂⟩
      (hmeets₂.and (meets_of_forall hbetween s₂)) hrun₂
    rintro s e s' ⟨turn, place, hsound, hle, hlt, htracks, hB⟩ ⟨hsame, hkeepsA,
      hleavesB⟩ hstep
    obtain rfl := hnear hsound hle hlt hsame
    obtain ⟨turn', place', hle', hlt', hsound', hout, htracks'⟩ :=
      step_sound hsound hstep
    exact ⟨turn', place', hsound', hle', hlt', htracks' A a start ha hkeepsA
      htracks, hB.step (hout B hleavesB)⟩
  obtain rfl := hnear hsound hle hlt (hlast s₂' hrun₂).1
  -- from then on both are tracked
  obtain ⟨t, hputB, hnil⟩ := foldlM_except_cons_ok.1 hrun
  obtain rfl := ok.inj hnil
  obtain ⟨place₃, hsound₃, hothers₃, hpopped₃, htracksB₃⟩ :=
    hsound.tracks_put hB hb hputB
  have htracksA₃ := htracks.untouched (hothers₃ A hne) (le_refl _)
  rw [← hpopped₃] at htracksA₃
  generalize hstartB : turn * 65536 + (s₂'.nodes B).deficit =
    startB at htracksB₃
  obtain ⟨turn', place', hsound', hA', hB'⟩ : ∃ turn place,
      s'.Sound turn place ∧
      s'.Tracks turn place A a start (s'.popped.count A) ∧
      s'.Tracks turn place B b startB (s'.popped.count B) := by
    refine run_invariant (I := fun s : Drr ι => ∃ turn place,
      s.Sound turn place ∧ s.Tracks turn place A a start (s.popped.count A) ∧
      s.Tracks turn place B b startB (s.popped.count B)) ?_
      ⟨turn, place₃, hsound₃, htracksA₃, htracksB₃⟩
      (meets_of_forall hafter t) hrun₃
    rintro s e s' ⟨turn, place, hsound, hA, hB⟩ ⟨hkeepsA, hkeepsB⟩ hstep
    obtain ⟨turn', place', -, -, hsound', -, htracks'⟩ :=
      step_sound hsound hstep
    exact ⟨turn', place', hsound', htracks' A a start ha hkeepsA hA,
      htracks' B b startB hb hkeepsB hB⟩
  have hdeficitA := hsound₁.deficit A
  have hdeficitB := hsound.deficit B
  exact ⟨hA'.fair hsound' hB' (by omega), hB'.fair hsound' hA' (by omega)⟩

/-- A node of weight 16 and one of weight 32 that stay. -/
def pairAgain (name : Nat) : Option Nat :=
  if name = 0 then some 16 else if name = 1 then some 32 else none

/-- A third node, of weight 257, is popped between the first sets of the two,
and a fourth is set and unset. -/
theorem popped_fair_pair :
    ∃ s', List.foldlM step (⟨queueInit, fun _ => {}, []⟩ : Drr Nat)
        ([.set 2 257] ++ (.set 0 16 :: ([.pop pairAgain] ++ [.set 1 32])) ++
          ([.set 3 1, .unset 3] ++ List.replicate 9 (.pop pairAgain))) =
        .ok s' ∧ s'.popped.count 0 = 3 ∧ s'.popped.count 1 = 6 ∧
      (3 * offsetOf 16 : Int) - 6 * offsetOf 32 < offsetOf 32 + 2 * 65536 := by
  have hreaches : reaches step (fun s' : Drr Nat =>
      s'.popped.count 0 == 3 && s'.popped.count 1 == 6)
      ⟨queueInit, fun _ => {}, []⟩
      ([.set 2 257] ++ (.set 0 16 :: ([.pop pairAgain] ++ [.set 1 32])) ++
        ([.set 3 1, .unset 3] ++ replicate 9 (.pop pairAgain))) =
      true := by
    decide +kernel
  obtain ⟨s', hrun, hcounts⟩ := exists_of_reaches hreaches
  simp only [Bool.and_eq_true, beq_iff_eq] at hcounts
  obtain ⟨hcountA, hcountB⟩ := hcounts
  have hfair := popped_fair (by decide) (by decide) (by decide)
    ⟨rfl, fun _ => rfl, fun _ => Nat.zero_lt_succ _, rfl⟩
    (by simp [Event.Leaves]) (by simp [Event.Keeps, Event.Leaves, pairAgain])
    (by
      intro e he
      simp only [mem_append, mem_cons, not_mem_nil, or_false,
        mem_replicate] at he
      rcases he with (rfl | rfl) | ⟨-, rfl⟩ <;>
        simp [Event.Keeps, pairAgain])
    (by
      intro t ht
      obtain ⟨t', ht', hnil⟩ := foldlM_except_cons_ok.1 ht
      cases hnil
      cases ht'
      decide) hrun
  rw [hcountA, hcountB] at hfair
  exact ⟨s', hrun, hcountA, hcountB, hfair.1⟩

end Drr

end H2o.Scheduler
