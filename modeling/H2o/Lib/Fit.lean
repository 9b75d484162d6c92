/-
Queues bounded by the total size of what they hold.

A queue has its newest element first and is shortened at the other end. What
is left when it has to fit into `cap` beside `used` is its longest beginning
that does (`takeFit`). The loop that drops one element after another computes
it, and of two queues of which one begins the other the same holds after both
are shortened.
-/
import Mathlib.Tactic

namespace H2o.Lib

open List

variable {α β : Type*} (size : α → Nat) (cap : Nat) {l : List α} {used : Nat}

/-- The longest beginning that fits into `cap` beside `used`. -/
def takeFit : Nat → List α → List α
  | _, [] => []
  | used, a :: l =>
    if used + size a ≤ cap then a :: takeFit (used + size a) l else []

variable {size cap}

theorem takeFit_eq_self (h : used + (l.map size).sum ≤ cap) :
    takeFit size cap used l = l := by
  induction l generalizing used with
  | nil => rfl
  | cons a l ih =>
    rw [map_cons, sum_cons] at h
    rw [takeFit, if_pos (by omega), ih (by omega)]

/-- A queue that does not fit may as well lose its oldest element first. -/
theorem takeFit_dropLast (h : cap < used + (l.map size).sum) :
    takeFit size cap used l.dropLast = takeFit size cap used l := by
  induction l generalizing used with
  | nil => rfl
  | cons a l ih =>
    rw [map_cons, sum_cons] at h
    cases l with
    | nil =>
      rw [map_nil, sum_nil] at h
      rw [takeFit, if_neg (by omega)]
      rfl
    | cons b l => rw [dropLast_cons_cons, takeFit, takeFit, ih (by omega)]

theorem takeFit_isPrefix_self (used : Nat) (l : List α) :
    takeFit size cap used l <+: l := by
  induction l generalizing used with
  | nil => exact nil_prefix
  | cons a l ih =>
    rw [takeFit]
    split
    · exact cons_prefix_cons.mpr ⟨rfl, ih _⟩
    · exact nil_prefix

/-- Of a beginning of a queue a beginning is left. -/
theorem takeFit_isPrefix {l' : List α} (h : l <+: l') :
    takeFit size cap used l <+: takeFit size cap used l' := by
  induction l generalizing used l' with
  | nil => exact nil_prefix
  | cons a l ih =>
    cases l' with
    | nil => exact absurd (prefix_nil.mp h) (cons_ne_nil a l)
    | cons b l' =>
      obtain ⟨rfl, hl⟩ := cons_prefix_cons.mp h
      rw [takeFit, takeFit]
      split
      · exact cons_prefix_cons.mpr ⟨rfl, ih hl⟩
      · exact nil_prefix

/-- What is left fits. -/
theorem sum_takeFit_le (h : used ≤ cap) (l : List α) :
    used + ((takeFit size cap used l).map size).sum ≤ cap := by
  induction l generalizing used with
  | nil => exact h
  | cons a l ih =>
    rw [takeFit]
    split
    next hfits =>
      have hrest := ih hfits
      rw [map_cons, sum_cons]
      omega
    next => exact h

theorem takeFit_map {size' : β → Nat} {f : β → α}
    (hf : ∀ b, size (f b) = size' b) (used : Nat) (l : List β) :
    takeFit size cap used (l.map f) = (takeFit size' cap used l).map f := by
  induction l generalizing used with
  | nil => rfl
  | cons b l ih =>
    rw [map_cons, takeFit, takeFit, hf]
    split
    · rw [ih, map_cons]
    · rfl

end H2o.Lib
