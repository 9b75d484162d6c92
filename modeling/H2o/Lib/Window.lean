/-
A list in a part of a buffer.

`InWindow buf first l` says that the slots of `buf` from `first` on hold `l`.
Taking the first element off clears its slot and moves the beginning of the
window; adding one needs a slot behind the last; and a list at the beginning
of a buffer of its own is in a window.
-/
import Mathlib.Data.List.Basic

namespace H2o.Lib

open List

variable {α : Type}

structure InWindow (buf : List (Option α)) (first : Nat) (l : List α) :
    Prop where
  fits : first + l.length ≤ buf.length
  slot : ∀ i (hi : i < l.length), buf[first + i]? = some (some l[i])

variable {buf : List (Option α)} {first : Nat} {l : List α}

theorem inWindow_nil (h : first ≤ buf.length) : InWindow buf first [] :=
  ⟨h, fun _ hi => absurd hi (Nat.not_lt_zero _)⟩

theorem inWindow_map_some (l : List α) (rest : List (Option α)) :
    InWindow (l.map some ++ rest) 0 l := by
  refine ⟨by simp, fun i hi => ?_⟩
  rw [Nat.zero_add, getElem?_append_left (by simpa using hi),
    getElem?_map, getElem?_eq_getElem hi, Option.map_some]

/-- The slots of the window, as they are copied. -/
theorem InWindow.slots (h : InWindow buf first l) :
    (buf.drop first).take l.length = l.map some := by
  apply ext_getElem?
  intro i
  by_cases hi : i < l.length
  · rw [getElem?_take_of_lt hi, getElem?_drop, h.slot i hi,
      getElem?_map, getElem?_eq_getElem hi, Option.map_some]
  · rw [getElem?_eq_none (by simp; omega), getElem?_eq_none (by simp; omega)]

theorem InWindow.tail {a : α} (h : InWindow buf first (a :: l))
    (x : Option α) : InWindow (buf.set first x) (first + 1) l := by
  have hfits := h.fits
  rw [length_cons] at hfits
  refine ⟨by rw [length_set]; omega, fun i hi => ?_⟩
  have hslot := h.slot (i + 1) (by rw [length_cons]; omega)
  rw [getElem?_set_ne (by omega), Nat.add_assoc, Nat.add_comm 1 i, hslot]
  rfl

theorem InWindow.push (h : InWindow buf first l)
    (hroom : first + l.length < buf.length) (a : α) :
    InWindow (buf.set (first + l.length) (some a)) first (l ++ [a]) := by
  refine ⟨by simp; omega, fun i hi => ?_⟩
  rw [length_append, length_singleton] at hi
  by_cases hlast : i = l.length
  · subst hlast
    rw [getElem?_set_self hroom]
    simp
  · rw [getElem?_set_ne (by omega), h.slot i (by omega),
      getElem_append_left (by omega)]

end H2o.Lib
