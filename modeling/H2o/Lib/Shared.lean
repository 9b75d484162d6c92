/-
Memory with reference counts.

A block is known by its address and lives as long as it has references. An
address is not used again: a block that has been freed keeps its place with no
reference, so that a use of it after that shows. `Owns m refs` says that the
holder of the references `refs` may use and release them, each once for every
time it is listed, whoever else holds some.
-/
import Mathlib.Data.List.Count

namespace H2o.Lib

open List

variable {α : Type}

/-- The values of the blocks and their numbers of references, by address. -/
structure Shared (α : Type) where
  blocks : List (α × Nat)

namespace Shared

def empty : Shared α := ⟨[]⟩

def refcnt (m : Shared α) (p : Nat) : Nat :=
  match m.blocks[p]? with
  | some b => b.2
  | none => 0

/-- The value of a block that lives. -/
def get (m : Shared α) (p : Nat) : Option α :=
  match m.blocks[p]? with
  | some (v, n) => if n = 0 then none else some v
  | none => none

/-- A new block, with one reference. -/
def alloc (m : Shared α) (v : α) : Shared α × Nat :=
  (⟨m.blocks ++ [(v, 1)]⟩, m.blocks.length)

/-- One reference more, to a block that lives. -/
def addref (m : Shared α) (p : Nat) : Option (Shared α) :=
  (m.get p).map fun v => ⟨m.blocks.set p (v, m.refcnt p + 1)⟩

/-- One reference less; without any the block is freed. -/
def release (m : Shared α) (p : Nat) : Option (Shared α) :=
  (m.get p).map fun v => ⟨m.blocks.set p (v, m.refcnt p - 1)⟩

def Owns (m : Shared α) (refs : List Nat) : Prop :=
  ∀ p, refs.count p ≤ m.refcnt p

-- ==== single blocks

/-- A block lives as long as it is counted. -/
theorem get_isSome_iff {m : Shared α} {p : Nat} :
    (m.get p).isSome ↔ 0 < m.refcnt p := by
  unfold get refcnt
  cases m.blocks[p]? with
  | none => simp
  | some b =>
    simp only
    split <;> simp <;> omega

theorem refcnt_set {m : Shared α} {p : Nat} {v : α} (h : m.get p = some v)
    (n q : Nat) :
    refcnt ⟨m.blocks.set p (v, n)⟩ q = if q = p then n else m.refcnt q := by
  have hp : p < m.blocks.length := by
    unfold get at h
    by_contra hge
    rw [getElem?_eq_none (by omega)] at h
    cases h
  unfold refcnt
  by_cases hq : q = p
  · rw [if_pos hq, hq, getElem?_set_self hp]
  · rw [if_neg hq, getElem?_set_ne (Ne.symm hq)]

theorem get_set {m : Shared α} {p : Nat} {v : α} (h : m.get p = some v)
    (n : Nat) {q : Nat} (hq : q = p → n ≠ 0) :
    get ⟨m.blocks.set p (v, n)⟩ q = m.get q := by
  have hp : p < m.blocks.length := by
    unfold get at h
    by_contra hge
    rw [getElem?_eq_none (by omega)] at h
    cases h
  by_cases hpq : q = p
  · rw [hpq, h, get, getElem?_set_self hp]
    simp only [if_neg (hq hpq)]
  · rw [get, get, getElem?_set_ne (Ne.symm hpq)]

-- ==== holders

variable {m : Shared α} {refs : List Nat} {p : Nat}

theorem owns_empty : Owns (empty : Shared α) [] := fun _ => Nat.le_refl 0

theorem Owns.perm {refs' : List Nat} (h : Owns m refs)
    (hperm : refs'.Perm refs) : Owns m refs' := by
  intro p
  rw [hperm.count_eq]
  exact h p

/-- Who holds a reference can read it. -/
theorem Owns.exists_get (h : Owns m refs) (hp : p ∈ refs) :
    ∃ v, m.get p = some v := by
  have hpos : 0 < refs.count p := count_pos_iff.2 hp
  exact Option.isSome_iff_exists.1
    (get_isSome_iff.2 (Nat.lt_of_lt_of_le hpos (h p)))

/-- A new block, held once. -/
theorem Owns.alloc (h : Owns m refs) (v : α) :
    Owns (m.alloc v).1 ((m.alloc v).2 :: refs) ∧
      (m.alloc v).1.get (m.alloc v).2 = some v ∧
      ∀ q ∈ refs, (m.alloc v).1.get q = m.get q := by
  have hold : ∀ q, q < m.blocks.length → (m.blocks ++ [(v, 1)])[q]? =
      m.blocks[q]? :=
    fun q hq => getElem?_append_left hq
  refine ⟨?_, ?_, ?_⟩
  · intro q
    by_cases hq : q = m.blocks.length
    · have hcount : refs.count q = 0 := by
        have hle := h q
        rw [refcnt, hq, getElem?_eq_none (Nat.le_refl _)] at hle
        rw [hq]
        exact Nat.le_zero.1 hle
      rw [count_cons, hcount, hq]
      simp [Shared.alloc, refcnt]
    · show count q (m.blocks.length :: refs) ≤ _
      rw [count_cons_of_ne (Ne.symm hq)]
      refine Nat.le_trans (h q) ?_
      simp only [Shared.alloc, refcnt]
      by_cases hlt : q < m.blocks.length
      · exact Nat.le_of_eq (by rw [hold q hlt])
      · rw [getElem?_eq_none (Nat.le_of_not_lt hlt)]
        exact Nat.zero_le _
  · simp [Shared.alloc, get]
  · intro q hq
    obtain ⟨w, hw⟩ := h.exists_get hq
    have hlt : q < m.blocks.length := by
      by_contra hge
      rw [get, getElem?_eq_none (by omega)] at hw
      cases hw
    simp only [Shared.alloc, get]
    rw [hold q hlt]

/-- One more holder. -/
theorem Owns.addref (h : Owns m refs) (hp : p ∈ refs) :
    ∃ m', m.addref p = some m' ∧ Owns m' (p :: refs) ∧ ∀ q,
      m'.get q = m.get q := by
  obtain ⟨v, hv⟩ := h.exists_get hp
  refine ⟨⟨m.blocks.set p (v, m.refcnt p + 1)⟩, by rw [Shared.addref, hv]; rfl,
    ?_, fun q => get_set hv _ fun _ => Nat.succ_ne_zero _⟩
  intro q
  rw [refcnt_set hv, count_cons]
  have hq := h q
  by_cases hpq : q = p
  · subst hpq
    simp only [beq_self_eq_true, if_true]
    omega
  · have hbeq : (p == q) = false := beq_eq_false_iff_ne.2 (Ne.symm hpq)
    simp only [hbeq, if_neg hpq, Bool.false_eq_true]
    exact hq

/-- The others still read theirs. -/
theorem Owns.release (h : Owns m (p :: refs)) :
    ∃ m', m.release p = some m' ∧ Owns m' refs ∧ ∀ q ∈ refs,
      m'.get q = m.get q := by
  obtain ⟨v, hv⟩ := h.exists_get mem_cons_self
  refine ⟨⟨m.blocks.set p (v, m.refcnt p - 1)⟩,
    by rw [Shared.release, hv]; rfl, ?_, ?_⟩
  · intro q
    have hq := h q
    rw [count_cons] at hq
    rw [refcnt_set hv]
    by_cases hpq : q = p
    · subst hpq
      simp only [beq_self_eq_true, if_true] at hq ⊢
      omega
    · rw [if_neg hpq]
      omega
  · intro q hq
    refine get_set hv _ fun hpq => ?_
    -- another reference to the block is left
    have hcount := h p
    rw [count_cons_self] at hcount
    have hpos : 0 < refs.count p := count_pos_iff.2 (hpq ▸ hq)
    omega

end Shared

end H2o.Lib
