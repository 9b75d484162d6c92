/-
Positions in a sequence of segments.

A buffer that is kept as a list of segments is read and consumed at positions
of their concatenation. `seek` walks to a position: it gives the segments
before it, those from it on, and the offset in the first of these.
-/
import Mathlib.Tactic

namespace H2o.Lib

open List

variable {α : Type*} {len : α → Nat}

/-- The length of all segments. -/
def total (len : α → Nat) (segs : List α) : Nat := (segs.map len).sum

/-- Walks to a position; `none` if it is behind the end. -/
def seek (len : α → Nat) : List α → Nat → Option (List α × List α × Nat)
  | [], 0 => some ([], [], 0)
  | [], _ + 1 => none
  | seg :: segs, pos =>
    if pos < len seg ∨ pos = 0 then some ([], seg :: segs, pos)
    else
      (seek len segs (pos - len seg)).map fun r => (seg :: r.1, r.2.1, r.2.2)

@[simp] theorem total_nil : total len [] = 0 := rfl

@[simp] theorem total_cons (seg : α) (segs : List α) :
    total len (seg :: segs) = len seg + total len segs := by
  simp [total]

@[simp] theorem total_append (segs segs' : List α) :
    total len (segs ++ segs') = total len segs + total len segs' := by
  simp [total]

/-- A position up to the end is found. -/
theorem seek_spec {segs : List α} (hpos : ∀ seg ∈ segs, 0 < len seg)
    {pos : Nat} (h : pos ≤ total len segs) :
    ∃ before after off, seek len segs pos = some (before, after, off) ∧
      segs = before ++ after ∧ pos = total len before + off ∧
      (∀ seg ∈ after.head?, off < len seg) ∧ (after = [] → off = 0) := by
  induction segs generalizing pos with
  | nil =>
    rw [total_nil, Nat.le_zero] at h
    subst h
    exact ⟨[], [], 0, rfl, rfl, rfl, by simp, fun _ => rfl⟩
  | cons seg segs ih =>
    have hseg := hpos seg mem_cons_self
    rw [seek]
    by_cases hhere : pos < len seg ∨ pos = 0
    · rw [if_pos hhere]
      refine ⟨[], seg :: segs, pos, rfl, rfl, (Nat.zero_add pos).symm, ?_,
        fun hnil => absurd hnil (cons_ne_nil _ _)⟩
      intro seg' hseg'
      cases hseg'
      omega
    · rw [if_neg hhere]
      rw [total_cons] at h
      obtain ⟨before, after, off, hseek, hsplit, heq, hoff, hend⟩ :=
        @ih (fun seg' hmem => hpos seg' (mem_cons_of_mem _ hmem))
          (pos - len seg) (by omega)
      refine ⟨seg :: before, after, off, ?_, ?_, ?_, hoff, hend⟩
      · rw [hseek, Option.map_some]
      · rw [hsplit, cons_append]
      · rw [total_cons]
        omega

end H2o.Lib
